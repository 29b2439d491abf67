import Mathlib.Data.List.MinMax
import Mathlib.Order.Monotone.Defs

/-!
# Sliding windows

Items come in the order of a key, and the window holds those whose key is at or above a cutoff that
depends on the newest one.  It is kept by dropping from the front after each arrival, which needs no
look at the items behind the first that stays.
-/

namespace SlidingWindow

variable {β κ : Type*} [LinearOrder κ] (key : β → κ) (cutoff : κ → κ)

/-- The items in the window of the last one. -/
def window (xs : List β) : List β :=
  match xs.getLast? with
  | none => []
  | some last => xs.filter fun x => cutoff (key last) ≤ key x

/-- The window after the arrival of `x`. -/
def slide (held : List β) (x : β) : List β :=
  (held ++ [x]).dropWhile fun y => key y < cutoff (key x)

/-- The items come in the order of their keys. -/
def Ordered (xs : List β) : Prop := xs.Pairwise fun x y => key x ≤ key y

variable {key cutoff}

theorem window_nil : window key cutoff [] = [] := rfl

theorem window_concat (xs : List β) (x : β) :
    window key cutoff (xs ++ [x]) = (xs ++ [x]).filter fun y => cutoff (key x) ≤ key y := by
  rw [window, List.getLast?_concat]

/-- In a list in order, what is below a bound stands at the front. -/
theorem dropWhile_eq_filter (bound : κ) {xs : List β} (h : Ordered key xs) :
    (xs.dropWhile fun x => key x < bound) = xs.filter fun x => bound ≤ key x := by
  induction xs with
  | nil => rfl
  | cons x xs ih =>
      obtain ⟨hx, hxs⟩ := List.pairwise_cons.1 h
      by_cases hlt : key x < bound
      · rw [List.dropWhile_cons_of_pos (by simpa using hlt), ih hxs,
          List.filter_cons_of_neg (by simpa using hlt)]
      · have hle : bound ≤ key x := le_of_not_gt hlt
        rw [List.dropWhile_cons_of_neg (by simpa using hle)]
        symm
        apply List.filter_eq_self.2
        intro y hy
        rw [decide_eq_true_eq]
        rcases List.mem_cons.1 hy with rfl | hy
        · exact hle
        · exact hle.trans (hx y hy)

theorem Ordered.concat {xs : List β} {x y : β} (h : Ordered key (xs ++ [x])) (hy : y ∈ xs) :
    key y ≤ key x := (List.pairwise_append.1 h).2.2 y hy x (List.mem_singleton_self x)

theorem Ordered.le_last {xs : List β} {x last : β} (h : Ordered key xs)
    (hlast : xs.getLast? = some last) (hx : x ∈ xs) : key x ≤ key last := by
  obtain ⟨init, rfl⟩ := List.getLast?_eq_some_iff.1 hlast
  rcases List.mem_append.1 hx with hx | hx
  · exact h.concat hx
  · rw [List.mem_singleton.1 hx]

/-- **Dropping from the front keeps the window.** -/
theorem window_slide (hcutoff : Monotone cutoff) {xs : List β} {x : β}
    (h : Ordered key (xs ++ [x])) :
    window key cutoff (xs ++ [x]) = slide key cutoff (window key cutoff xs) x := by
  have hxs : Ordered key xs := (List.pairwise_append.1 h).1
  rcases List.eq_nil_or_concat' xs with rfl | ⟨init, last, rfl⟩
  · rw [window_concat, window_nil, slide]
    exact (dropWhile_eq_filter _ h).symm
  · have hlast : key last ≤ key x := h.concat List.mem_concat_self
    have hsub : (window key cutoff (init ++ [last]) ++ [x]).Sublist (init ++ [last] ++ [x]) := by
      rw [window_concat]
      exact (List.filter_sublist ..).append_right [x]
    have hboth : ∀ y, (decide (cutoff (key x) ≤ key y) && decide (cutoff (key last) ≤ key y)) =
        decide (cutoff (key x) ≤ key y) := by
      intro y
      by_cases hy : cutoff (key x) ≤ key y
      · rw [decide_eq_true hy, decide_eq_true ((hcutoff hlast).trans hy)]
        rfl
      · rw [decide_eq_false hy]
        rfl
    rw [slide, dropWhile_eq_filter _ (h.sublist hsub), window_concat, window_concat,
      List.filter_append (init ++ [last]), List.filter_append _ [x], List.filter_filter]
    simp only [hboth]

theorem window_subset (xs : List β) : window key cutoff xs ⊆ xs := by
  rcases List.eq_nil_or_concat' xs with rfl | ⟨init, last, rfl⟩
  · exact fun _ h => h
  · rw [window_concat]
    exact List.filter_subset_self _

/-- The newest item is in the window when the cutoff is not above it. -/
theorem last_mem_window {xs : List β} {last : β} (h : xs.getLast? = some last)
    (hle : cutoff (key last) ≤ key last) : last ∈ window key cutoff xs := by
  rw [window, h]
  exact List.mem_filter.2 ⟨List.mem_of_getLast? h, decide_eq_true hle⟩

theorem le_of_mem_window {xs : List β} {x last : β} (h : xs.getLast? = some last)
    (hx : x ∈ window key cutoff xs) : cutoff (key last) ≤ key x := by
  rw [window, h] at hx
  exact of_decide_eq_true (List.mem_filter.1 hx).2

/-! ### The least item -/

variable {ν : Type*} [LinearOrder ν] (value : β → ν)

/-- The loop that keeps the first item of least value. -/
def scan (best : β) (xs : List β) : β :=
  xs.foldl (fun best x => if value x < value best then x else best) best

/-- The loop finds `List.argmin`, also when it starts over at the first item. -/
theorem argmin_eq_scan (x : β) (xs : List β) :
    (x :: xs).argmin value = some (scan value x (x :: xs)) := by
  have hloop : ∀ (ys : List β) (best : β),
      ys.foldl (List.argAux fun b c => value b < value c) (some best) = some (scan value best ys) := by
    intro ys
    induction ys with
    | nil => exact fun _ => rfl
    | cons y ys ih =>
        intro best
        rw [List.foldl_cons, scan, List.foldl_cons]
        by_cases hlt : value y < value best
        · simp only [List.argAux, if_pos hlt]
          exact ih y
        · simp only [List.argAux, if_neg hlt]
          exact ih best
  have hfirst : scan value x (x :: xs) = scan value x xs := by
    rw [scan, List.foldl_cons, if_neg (lt_irrefl _), scan]
  rw [hfirst]
  exact hloop xs x

end SlidingWindow
