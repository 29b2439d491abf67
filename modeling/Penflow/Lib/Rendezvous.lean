import Mathlib.Data.List.Basic

/-!
# Rendezvous

The items of two streams meet in order, the `k`-th of one with the `k`-th of the other: what has met is
`List.zipWith meet xs ys`, and what waits is the tail of the longer stream.
-/

namespace Rendezvous

variable {α β γ : Type*} (meet : α → β → γ) {xs : List α} {ys : List β}

/-- At most one of the streams waits. -/
theorem drop_eq_nil_or (xs : List α) (ys : List β) :
    xs.drop ys.length = [] ∨ ys.drop xs.length = [] := by
  rcases Nat.le_total xs.length ys.length with h | h
  · exact .inl (List.drop_eq_nil_of_le h)
  · exact .inr (List.drop_eq_nil_of_le h)

/-- An item waits when no partner does. -/
theorem met_right_of_le (h : xs.length ≤ ys.length) (y : β) :
    List.zipWith meet xs (ys ++ [y]) = List.zipWith meet xs ys := by
  induction xs generalizing ys with
  | nil => rfl
  | cons x xs ih =>
      cases ys with
      | nil => exact absurd h (Nat.not_succ_le_zero _)
      | cons y' ys =>
          rw [List.cons_append, List.zipWith_cons_cons, List.zipWith_cons_cons,
            ih (Nat.le_of_succ_le_succ h)]

/-- It meets the first that waits. -/
theorem met_right {x : α} {rest : List α} (h : xs.drop ys.length = x :: rest) (y : β) :
    List.zipWith meet xs (ys ++ [y]) = List.zipWith meet xs ys ++ [meet x y] := by
  induction xs generalizing ys with
  | nil =>
      rw [List.drop_nil] at h
      cases h
  | cons x' xs ih =>
      cases ys with
      | nil =>
          cases h
          rw [List.nil_append, List.zipWith_cons_cons, List.zipWith_nil_right, List.zipWith_nil_right,
            List.nil_append]
      | cons y' ys =>
          rw [List.cons_append, List.zipWith_cons_cons, List.zipWith_cons_cons, ih h, List.cons_append]

theorem met_left_of_le (h : ys.length ≤ xs.length) (x : α) :
    List.zipWith meet (xs ++ [x]) ys = List.zipWith meet xs ys := by
  have hswap : List.zipWith meet xs ys = List.zipWith (fun b a => meet a b) ys xs :=
    List.zipWith_comm
  rw [hswap, List.zipWith_comm]
  exact met_right_of_le _ h x

theorem met_left {y : β} {rest : List β} (h : ys.drop xs.length = y :: rest) (x : α) :
    List.zipWith meet (xs ++ [x]) ys = List.zipWith meet xs ys ++ [meet x y] := by
  have hswap : List.zipWith meet xs ys = List.zipWith (fun b a => meet a b) ys xs :=
    List.zipWith_comm
  rw [hswap, List.zipWith_comm]
  exact met_right _ h x

/-- The others still wait. -/
theorem drop_concat {x : α} {rest : List α} (h : xs.drop ys.length = x :: rest) (y : β) :
    xs.drop (ys ++ [y]).length = rest := by
  rw [List.length_append, List.length_singleton, ← List.drop_drop, h]
  rfl

theorem drop_concat_of_le (h : xs.length ≤ ys.length) (y : β) :
    (ys ++ [y]).drop xs.length = ys.drop xs.length ++ [y] := List.drop_append_of_le_length h

theorem le_of_drop_eq_nil (h : xs.drop ys.length = []) : xs.length ≤ ys.length :=
  List.drop_eq_nil_iff.1 h

end Rendezvous
