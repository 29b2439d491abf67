import Mathlib.Algebra.Ring.Nat
import Mathlib.Data.Nat.Notation

/-!
# Actions up to the first that fails

A list of actions is attempted one after the other, and the first that fails is the last.  `perform` counts
those that were performed, and says which state is behind the last attempt; what was performed is a prefix of
the list, and `perform_append` runs a list that is put together.
-/

namespace Attempts

variable {σ α : Type*} (act : σ → α → σ × Bool)

/-- How many of the actions are performed, and the state behind the last one attempted. -/
def perform : σ → List α → ℕ × σ
  | s, [] => (0, s)
  | s, a :: as =>
    match act s a with
    | (s', true) =>
      let (n, s'') := perform s' as
      (n + 1, s'')
    | (s', false) => (0, s')

/-- All actions are performed. -/
def Completes (s : σ) (as : List α) : Prop := (perform act s as).1 = as.length

instance (s : σ) (as : List α) : Decidable (Completes act s as) :=
  inferInstanceAs (Decidable (_ = _))

/-- The actions that are performed. -/
def performed (s : σ) (as : List α) : List α := as.take (perform act s as).1

variable {act} {s : σ} {a : α} {as bs : List α}

theorem perform_nil : perform act s [] = (0, s) := rfl

theorem perform_cons_of_ok {s' : σ} (h : act s a = (s', true)) :
    perform act s (a :: as) = ((perform act s' as).1 + 1, (perform act s' as).2) := by
  rw [perform, h]

theorem perform_cons_of_fails {s' : σ} (h : act s a = (s', false)) :
    perform act s (a :: as) = (0, s') := by
  rw [perform, h]

theorem perform_fst_le : (perform act s as).1 ≤ as.length := by
  induction as generalizing s with
  | nil => exact Nat.le_refl 0
  | cons a as ih =>
      rw [List.length_cons]
      rcases h : act s a with ⟨s', _ | _⟩
      · rw [perform_cons_of_fails h]
        exact Nat.zero_le _
      · rw [perform_cons_of_ok h]
        exact Nat.succ_le_succ ih

theorem completes_nil : Completes act s [] := rfl

theorem completes_cons_of_ok {s' : σ} (h : act s a = (s', true)) :
    Completes act s (a :: as) ↔ Completes act s' as := by
  rw [Completes, Completes, perform_cons_of_ok h, List.length_cons, Nat.add_right_cancel_iff]

theorem not_completes_cons {s' : σ} (h : act s a = (s', false)) : ¬ Completes act s (a :: as) := by
  rw [Completes, perform_cons_of_fails h, List.length_cons]
  omega

/-- A list behind one that is completed. -/
theorem perform_append_of_completes (h : Completes act s as) : perform act s (as ++ bs) =
    (as.length + (perform act (perform act s as).2 bs).1, (perform act (perform act s as).2 bs).2) := by
  induction as generalizing s with
  | nil =>
      rw [List.nil_append, List.length_nil, Nat.zero_add]
      rfl
  | cons a as ih =>
      rw [List.cons_append, List.length_cons]
      rcases hact : act s a with ⟨s', _ | _⟩
      · exact absurd h (not_completes_cons hact)
      · rw [perform_cons_of_ok hact, perform_cons_of_ok hact, ih ((completes_cons_of_ok hact).1 h)]
        dsimp only
        rw [Nat.add_right_comm]

/-- A list behind one that ends early is not reached. -/
theorem perform_append_of_not_completes (h : ¬ Completes act s as) :
    perform act s (as ++ bs) = perform act s as := by
  induction as generalizing s with
  | nil => exact absurd completes_nil h
  | cons a as ih =>
      rw [List.cons_append]
      rcases hact : act s a with ⟨s', _ | _⟩
      · rw [perform_cons_of_fails hact, perform_cons_of_fails hact]
      · rw [perform_cons_of_ok hact, perform_cons_of_ok hact,
          ih fun hc => h ((completes_cons_of_ok hact).2 hc)]

theorem completes_append : Completes act s (as ++ bs) ↔
    Completes act s as ∧ Completes act (perform act s as).2 bs := by
  by_cases h : Completes act s as
  · rw [Completes, perform_append_of_completes h, List.length_append, and_iff_right h, Completes]
    exact Nat.add_left_cancel_iff
  · refine iff_of_false ?_ fun hand => h hand.1
    have hle := @perform_fst_le σ α act s as
    rw [Completes] at h ⊢
    rw [perform_append_of_not_completes h, List.length_append]
    omega

/-- **Where a list ends early.**  The actions before the place are all performed, the one at it fails. -/
theorem exists_of_not_completes (h : ¬ Completes act s as) : ∃ before a after, as = before ++ a :: after ∧
    Completes act s before ∧ (act (perform act s before).2 a).2 = false := by
  induction as generalizing s with
  | nil => exact absurd completes_nil h
  | cons a as ih =>
      rcases hact : act s a with ⟨s', _ | _⟩
      · refine ⟨[], a, as, rfl, completes_nil, ?_⟩
        rw [perform_nil, hact]
      · obtain ⟨before, b, after, rfl, hbefore, hb⟩ := ih fun hc => h ((completes_cons_of_ok hact).2 hc)
        refine ⟨a :: before, b, after, rfl, (completes_cons_of_ok hact).2 hbefore, ?_⟩
        rw [perform_cons_of_ok hact]
        exact hb

/-- So many actions are performed. -/
theorem perform_fst_of_fails (h : Completes act s as) (ha : (act (perform act s as).2 a).2 = false) :
    (perform act s (as ++ a :: bs)).1 = as.length := by
  rcases hact : act (perform act s as).2 a with ⟨s', _ | _⟩
  · rw [perform_append_of_completes h, perform_cons_of_fails hact]
    rfl
  · rw [hact] at ha
    cases ha

end Attempts
