import Mathlib.Data.List.Basic

/-!
# The last value a list gives

`lastSome g l` is the value `g` has at the last element of `l` where it has one: what a register
holds after the writes in `l`, of which `g` picks those to this register.
-/

namespace List

variable {α β γ : Type*}

/-- The value of `g` at the last element where it has one. -/
def lastSome (g : α → Option β) (l : List α) : Option β := l.reverse.findSome? g

@[simp]
theorem lastSome_nil (g : α → Option β) : lastSome g [] = none := rfl

/-- Later values win. -/
@[simp]
theorem lastSome_append (g : α → Option β) (xs ys : List α) :
    lastSome g (xs ++ ys) = (lastSome g ys).or (lastSome g xs) := by
  rw [lastSome, reverse_append, findSome?_append]
  rfl

theorem lastSome_cons (g : α → Option β) (x : α) (xs : List α) :
    lastSome g (x :: xs) = (lastSome g xs).or (g x) := by
  rw [← singleton_append, lastSome_append, lastSome, lastSome, reverse_singleton, findSome?_singleton]

theorem lastSome_concat (g : α → Option β) (xs : List α) (x : α) :
    lastSome g (xs ++ [x]) = (g x).or (lastSome g xs) := by
  rw [lastSome_append, lastSome, lastSome, reverse_singleton, findSome?_singleton]

theorem lastSome_eq_none {g : α → Option β} {l : List α} :
    lastSome g l = none ↔ ∀ x ∈ l, g x = none := by
  rw [lastSome, findSome?_eq_none_iff]
  simp only [mem_reverse]

theorem exists_of_lastSome_eq_some {g : α → Option β} {l : List α} {v : β}
    (h : lastSome g l = some v) : ∃ x ∈ l, g x = some v := by
  obtain ⟨x, hx, hgx⟩ := exists_of_findSome?_eq_some h
  exact ⟨x, mem_reverse.1 hx, hgx⟩

theorem lastSome_map (f : γ → α) (g : α → Option β) (l : List γ) :
    lastSome g (l.map f) = lastSome (fun c => g (f c)) l := by
  rw [lastSome, ← map_reverse, findSome?_map]
  rfl

/-- A list of lists gives what its last list that gives anything gives. -/
theorem lastSome_flatMap (f : γ → List α) (g : α → Option β) (l : List γ) :
    lastSome g (l.flatMap f) = lastSome (fun c => lastSome g (f c)) l := by
  induction l with
  | nil => rfl
  | cons c l ih => rw [flatMap_cons, lastSome_append, ih, lastSome_cons]

/-- **What is not the last value.**  The last value is not `v` when every place that gives `v` has a
place behind it that gives another one. -/
theorem lastSome_ne_some {g : α → Option β} {l : List α} {v : β} :
    lastSome g l ≠ some v ↔
      ∀ pre x post, l = pre ++ x :: post → g x = some v → ∃ y ∈ post, ∃ w ≠ v, g y = some w := by
  induction l with
  | nil =>
      constructor
      · intro _ pre x post h
        simp at h
      · intro _ h
        cases h
  | cons a l ih =>
      rw [lastSome_cons]
      constructor
      · intro hlast pre x post h hx
        cases pre with
        | nil =>
            obtain ⟨rfl, rfl⟩ := cons.inj h
            cases hl : lastSome g l with
            | none =>
                rw [hl, hx] at hlast
                exact absurd rfl hlast
            | some w =>
                rw [hl] at hlast
                obtain ⟨y, hy, hgy⟩ := exists_of_lastSome_eq_some hl
                exact ⟨y, hy, w, fun hw => hlast (congrArg some hw), hgy⟩
        | cons b pre =>
            obtain ⟨rfl, hl⟩ := cons.inj h
            refine ih.1 ?_ pre x post hl hx
            intro hv
            rw [hv] at hlast
            exact hlast rfl
      · intro hall
        have htail := ih.2 fun pre x post h hx => hall (a :: pre) x post (congrArg (a :: ·) h) hx
        cases hl : lastSome g l with
        | some w =>
            rw [hl] at htail
            exact htail
        | none =>
            intro hv
            obtain ⟨y, hy, w, -, hw⟩ := hall [] a l rfl hv
            rw [lastSome_eq_none.1 hl y hy] at hw
            cases hw

/-- In an increasing list, the place behind is the larger element. -/
theorem lastSome_ne_some_of_pairwise {r : α → α → Prop} [Std.Asymm r] {g : α → Option β}
    {l : List α} {v : β} (hl : l.Pairwise r) :
    lastSome g l ≠ some v ↔
      ∀ x ∈ l, g x = some v → ∃ y ∈ l, r x y ∧ ∃ w ≠ v, g y = some w := by
  rw [lastSome_ne_some]
  constructor
  · intro h x hx hgx
    obtain ⟨pre, post, rfl⟩ := append_of_mem hx
    obtain ⟨y, hy, hw⟩ := h pre x post rfl hgx
    have hpost := (pairwise_cons.1 (pairwise_append.1 hl).2.1).1
    exact ⟨y, mem_append_right pre (mem_cons_of_mem x hy), hpost y hy, hw⟩
  · intro h pre x post hsplit hgx
    obtain ⟨y, hy, hlt, hw⟩ := h x (hsplit ▸ mem_append_right pre mem_cons_self) hgx
    rw [hsplit] at hl hy
    refine ⟨y, ?_, hw⟩
    rcases mem_append.1 hy with hpre | hpost
    · exact absurd hlt (Std.Asymm.asymm y x ((pairwise_append.1 hl).2.2 y hpre x mem_cons_self))
    · rcases mem_cons.1 hpost with rfl | hpost
      · exact absurd hlt (Std.Asymm.asymm y y hlt)
      · exact hpost

end List
