import Mathlib.Data.List.DropRight

/-!
# Token lists

A text splits at a separator into tokens; each is trimmed at both ends, and the empty ones are left out.
`tokens` is that reading for any notion of blank.  It undoes a join of clean tokens, and does not notice
whether the text was trimmed before.
-/

namespace Tokens

variable {α : Type*} {p : α → Bool} {l : List α}

/-- `l` without the blanks at its ends. -/
def trim (p : α → Bool) (l : List α) : List α := (l.dropWhile p).rdropWhile p

@[simp] theorem trim_nil : trim p [] = [] := rfl

/-- The two ends are trimmed independently. -/
theorem dropWhile_rdropWhile (p : α → Bool) (l : List α) :
    (l.rdropWhile p).dropWhile p = (l.dropWhile p).rdropWhile p := by
  induction l using List.reverseRecOn with
  | nil => rfl
  | append_singleton l x ih =>
      rw [List.dropWhile_append]
      by_cases hx : p x
      · rw [List.rdropWhile_concat_pos _ _ _ hx, ih]
        by_cases hl : (l.dropWhile p).isEmpty
        · rw [if_pos hl, List.isEmpty_iff.1 hl]
          simp [List.dropWhile, hx]
        · rw [if_neg hl, List.rdropWhile_concat_pos _ _ _ hx]
      · rw [List.rdropWhile_concat_neg _ _ _ hx, List.dropWhile_append]
        by_cases hl : (l.dropWhile p).isEmpty
        · rw [if_pos hl]
          simp [List.dropWhile, List.rdropWhile, hx]
        · rw [if_neg hl, List.rdropWhile_concat_neg _ _ _ hx]

theorem trim_dropWhile : trim p (l.dropWhile p) = trim p l := by
  unfold trim
  rw [List.dropWhile_idempotent]

theorem trim_rdropWhile : trim p (l.rdropWhile p) = trim p l := by
  unfold trim
  rw [dropWhile_rdropWhile, List.rdropWhile_idempotent]

theorem trim_trim : trim p (trim p l) = trim p l := by
  rw [trim.eq_def p l, trim_rdropWhile, trim_dropWhile]
  rfl

theorem trim_sublist : (trim p l).Sublist l :=
  (List.rdropWhile_prefix p _).sublist.trans (List.dropWhile_sublist p)

/-- Blanks around a text that has none are what is trimmed. -/
theorem trim_append {r t : List α} (hl : ∀ x ∈ l, p x = true) (hr : ∀ x ∈ r, p x = true)
    (ht : ∀ x ∈ t, p x = false) : trim p (l ++ t ++ r) = t := by
  have hkeep : t.reverse.dropWhile p = t.reverse := by
    cases hrev : t.reverse with
    | nil => rfl
    | cons x xs =>
        have hx : x ∈ t := List.mem_reverse.1 (hrev ▸ List.mem_cons_self)
        rw [List.dropWhile_cons_of_neg (by rw [ht x hx]; exact Bool.false_ne_true)]
  have hright : (t ++ r).rdropWhile p = t := by
    unfold List.rdropWhile
    rw [List.reverse_append,
      List.dropWhile_append_of_pos fun x hx => hr x (List.mem_reverse.1 hx), hkeep,
      List.reverse_reverse]
  unfold trim
  rw [List.append_assoc, List.dropWhile_append_of_pos hl, ← dropWhile_rdropWhile, hright]
  cases t with
  | nil => rfl
  | cons x xs => rw [List.dropWhile_cons_of_neg (by rw [ht x List.mem_cons_self]; exact Bool.false_ne_true)]

theorem dropWhile_congr {q : α → Bool} (h : ∀ x ∈ l, p x = q x) : l.dropWhile p = l.dropWhile q := by
  induction l with
  | nil => rfl
  | cons x l ih =>
      rw [List.dropWhile_cons, List.dropWhile_cons, h x List.mem_cons_self,
        ih fun y hy => h y (List.mem_cons_of_mem x hy)]

/-- Two notions of blank that agree on the text trim it alike. -/
theorem trim_congr {q : α → Bool} (h : ∀ x ∈ l, p x = q x) : trim p l = trim q l := by
  unfold trim List.rdropWhile
  rw [dropWhile_congr h]
  congr 1
  exact dropWhile_congr fun x hx => h x ((List.dropWhile_sublist q).subset (List.mem_reverse.1 hx))

/-! ### Splitting -/

variable [DecidableEq α] {sep : α}

/-- No piece of a split has the separator. -/
theorem not_mem_of_mem_splitOn {t : List α} (h : t ∈ l.splitOn sep) : sep ∉ t := by
  induction l generalizing t with
  | nil =>
      rw [List.splitOn_nil, List.mem_singleton] at h
      rw [h]
      exact List.not_mem_nil
  | cons x l ih =>
      rw [List.splitOn_cons_eq_if_modifyHead] at h
      obtain ⟨u, us, hsplit⟩ := List.exists_cons_of_ne_nil (List.splitOn_ne_nil sep l)
      split at h
      · rcases List.mem_cons.1 h with rfl | h
        · exact List.not_mem_nil
        · exact ih h
      · rename_i hx
        rw [hsplit, List.modifyHead_cons] at h
        rcases List.mem_cons.1 h with rfl | h
        · have hu : sep ∉ u := ih (by rw [hsplit]; exact List.mem_cons_self)
          rw [List.mem_cons, not_or]
          exact ⟨fun he => hx (by rw [he]; exact BEq.rfl), hu⟩
        · exact ih (by rw [hsplit]; exact List.mem_cons_of_mem u h)

/-- The tokens of a text. -/
def tokens (p : α → Bool) (sep : α) (l : List α) : List (List α) :=
  ((l.splitOn sep).map (trim p)).filter (· ≠ [])

theorem tokens_append (xs ys : List α) :
    tokens p sep (xs ++ sep :: ys) = tokens p sep xs ++ tokens p sep ys := by
  unfold tokens
  rw [List.splitOn_append_cons_self, List.map_append, List.filter_append]

theorem tokens_of_not_mem (h : sep ∉ l) : tokens p sep l = [trim p l].filter (· ≠ []) := by
  unfold tokens
  rw [List.splitOn_eq_singleton h]
  rfl

theorem mem_tokens {t : List α} (h : t ∈ tokens p sep l) : sep ∉ t ∧ trim p t = t ∧ t ≠ [] := by
  obtain ⟨hmem, hne⟩ := List.mem_filter.1 h
  obtain ⟨u, hu, rfl⟩ := List.mem_map.1 hmem
  exact ⟨fun hs => not_mem_of_mem_splitOn hu (trim_sublist.subset hs), trim_trim, by simpa using hne⟩

/-- **A join splits again** into what was joined, each trimmed. -/
theorem tokens_intercalate {ts : List (List α)} (h : ∀ t ∈ ts, sep ∉ t) :
    tokens p sep ([sep].intercalate ts) = (ts.map (trim p)).filter (· ≠ []) := by
  unfold tokens
  cases ts with
  | nil => rfl
  | cons t ts => rw [List.splitOn_intercalate sep h (List.cons_ne_nil t ts)]

/-- Blanks in front of the text are in front of its first token. -/
theorem tokens_dropWhile (hsep : p sep = false) : tokens p sep (l.dropWhile p) = tokens p sep l := by
  by_cases h : sep ∈ l
  · obtain ⟨xs, ys, rfl, hxs⟩ := List.eq_append_cons_of_mem h
    have hdrop : (xs ++ sep :: ys).dropWhile p = xs.dropWhile p ++ sep :: ys := by
      rw [List.dropWhile_append]
      split
      · rename_i hnil
        rw [List.isEmpty_iff.1 hnil, List.dropWhile_cons_of_neg (by simp [hsep])]
        rfl
      · rfl
    have hxs' : sep ∉ xs.dropWhile p := fun hs => hxs ((List.dropWhile_sublist p).subset hs)
    rw [hdrop, tokens_append, tokens_append, tokens_of_not_mem hxs, tokens_of_not_mem hxs', trim_dropWhile]
  · have h' : sep ∉ l.dropWhile p := fun hs => h ((List.dropWhile_sublist p).subset hs)
    rw [tokens_of_not_mem h, tokens_of_not_mem h', trim_dropWhile]

/-- Blanks behind the text are behind its last token. -/
theorem tokens_rdropWhile (hsep : p sep = false) : tokens p sep (l.rdropWhile p) = tokens p sep l := by
  by_cases h : sep ∈ l
  · obtain ⟨ys, xs, hrev, hys⟩ := List.eq_append_cons_of_mem (List.mem_reverse.2 h)
    have hl : l = xs.reverse ++ sep :: ys.reverse := by
      rw [← List.reverse_reverse l, hrev, List.reverse_append, List.reverse_cons, List.append_assoc]
      rfl
    have hys' : sep ∉ ys.reverse := fun hs => hys (List.mem_reverse.1 hs)
    have hdrop : l.rdropWhile p = xs.reverse ++ sep :: ys.reverse.rdropWhile p := by
      unfold List.rdropWhile
      rw [hrev, List.reverse_reverse, List.dropWhile_append]
      split
      · rename_i hnil
        rw [List.isEmpty_iff.1 hnil, List.dropWhile_cons_of_neg (by simp [hsep])]
        simp
      · simp
    have hdrop' : sep ∉ ys.reverse.rdropWhile p :=
      fun hs => hys' ((List.rdropWhile_prefix p _).sublist.subset hs)
    rw [hdrop, hl, tokens_append, tokens_append, tokens_of_not_mem hys', tokens_of_not_mem hdrop',
      trim_rdropWhile]
  · have h' : sep ∉ l.rdropWhile p := fun hs => h ((List.rdropWhile_prefix p _).sublist.subset hs)
    rw [tokens_of_not_mem h, tokens_of_not_mem h', trim_rdropWhile]

/-- **Trimming the whole text changes no token.** -/
theorem tokens_trim (hsep : p sep = false) : tokens p sep (trim p l) = tokens p sep l := by
  unfold trim
  rw [tokens_rdropWhile hsep, tokens_dropWhile hsep]

end Tokens
