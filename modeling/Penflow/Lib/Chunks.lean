import Mathlib.Data.List.Basic
import Mathlib.Data.Nat.Notation

/-!
# Reading from a chunked stream

A stream arrives in chunks.  `readExact n` takes the next `n` elements, across as many chunks as it
needs, and fails where the stream ends before; where the chunks are cut makes no difference
(`readExact_flatten`).
-/

namespace Chunks

variable {α : Type*}

/-- The next `n` elements and the chunks behind them, or nothing where the stream ends first. -/
def readExact : ℕ → List (List α) → Option (List α × List (List α))
  | 0, cs => some ([], cs)
  | _ + 1, [] => none
  | n + 1, c :: cs =>
    if c.length ≤ n + 1 then (readExact (n + 1 - c.length) cs).map fun r => (c ++ r.1, r.2)
    else some (c.take (n + 1), c.drop (n + 1) :: cs)

/-- **What is read depends on the stream alone.** -/
theorem readExact_flatten {n : ℕ} {xs rest : List α} (hn : xs.length = n) {cs : List (List α)}
    (h : cs.flatten = xs ++ rest) : ∃ cs', readExact n cs = some (xs, cs') ∧ cs'.flatten = rest := by
  induction cs generalizing n xs with
  | nil =>
      obtain ⟨rfl, rfl⟩ := List.append_eq_nil_iff.1 h.symm
      obtain rfl : 0 = n := hn
      exact ⟨[], rfl, rfl⟩
  | cons c cs ih =>
      cases n with
      | zero =>
          obtain rfl := List.length_eq_zero_iff.1 hn
          exact ⟨c :: cs, rfl, h⟩
      | succ n =>
          rw [List.flatten_cons] at h
          rw [readExact]
          by_cases hc : c.length ≤ n + 1
          · obtain ⟨ys, rfl, hcs⟩ : ∃ ys, xs = c ++ ys ∧ cs.flatten = ys ++ rest := by
              obtain ⟨ys, hys, hrest⟩ | ⟨ys, hys, hrest⟩ := List.append_eq_append_iff.1 h
              · exact ⟨ys, hys, hrest⟩
              · have hlen := congrArg List.length hys
                rw [List.length_append] at hlen
                obtain rfl : ys = [] := List.length_eq_zero_iff.1 (by omega)
                exact ⟨[], by rw [hys, List.append_nil, List.append_nil], hrest.symm⟩
            rw [List.length_append] at hn
            obtain ⟨cs', hread, hrest⟩ := @ih (n + 1 - c.length) ys (by omega) hcs
            exact ⟨cs', by rw [if_pos hc, hread]; rfl, hrest⟩
          · obtain ⟨ys, hys, hrest⟩ : ∃ ys, c = xs ++ ys ∧ rest = ys ++ cs.flatten := by
              obtain ⟨ys, hys, hrest⟩ | ⟨ys, hys, hrest⟩ := List.append_eq_append_iff.1 h
              · have hlen := congrArg List.length hys
                rw [List.length_append] at hlen
                omega
              · exact ⟨ys, hys, hrest⟩
            refine ⟨c.drop (n + 1) :: cs, ?_, ?_⟩
            · rw [if_neg hc, hys, ← hn, List.take_left]
            · rw [List.flatten_cons, hys, ← hn, List.drop_left, hrest]

/-- It fails exactly where too little is left. -/
theorem readExact_eq_none {n : ℕ} {cs : List (List α)} (h : cs.flatten.length < n) :
    readExact n cs = none := by
  induction cs generalizing n with
  | nil =>
      cases n with
      | zero => cases h
      | succ n => rfl
  | cons c cs ih =>
      cases n with
      | zero => cases h
      | succ n =>
          rw [List.flatten_cons, List.length_append] at h
          rw [readExact, if_pos (by omega), ih (by omega)]
          rfl

end Chunks
