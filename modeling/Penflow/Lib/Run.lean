import Mathlib.Data.List.Basic
import Mathlib.Data.List.Induction

/-!
# Runs of a machine on its inputs

A machine with states `σ` takes the inputs `ι` one after the other; the state after `is` is
`is.foldl step s`.  `Run.Steps` says that every step meets a condition in the state before it, and the
two rules get from a step to a run: an invariant holds at the end, and a property that a step keeps
exactly under the condition holds all the way exactly when all steps meet it.
-/

namespace Run

variable {σ ι : Type*}

/-- Every step of the run from `s` meets `P`. -/
def Steps (step : σ → ι → σ) (P : σ → ι → Prop) : σ → List ι → Prop
  | _, [] => True
  | s, i :: is => P s i ∧ Steps step P (step s i) is

instance Steps.decidable (step : σ → ι → σ) (P : σ → ι → Prop) [hP : ∀ s i, Decidable (P s i)] :
    ∀ s is, Decidable (Steps step P s is)
  | _, [] => .isTrue trivial
  | s, i :: is =>
    have := Steps.decidable step P (step s i) is
    inferInstanceAs (Decidable (P s i ∧ Steps step P (step s i) is))

variable {step : σ → ι → σ} {P : σ → ι → Prop} {I : σ → Prop}

theorem steps_iff {s : σ} {is : List ι} :
    Steps step P s is ↔ ∀ pre i post, is = pre ++ i :: post → P (pre.foldl step s) i := by
  induction is generalizing s with
  | nil => simp [Steps]
  | cons i is ih =>
      rw [Steps, ih]
      constructor
      · rintro ⟨hi, his⟩ pre j post h
        cases pre with
        | nil =>
            obtain ⟨rfl, -⟩ := List.cons.inj h
            exact hi
        | cons k pre =>
            obtain ⟨rfl, htail⟩ := List.cons.inj h
            exact his pre j post htail
      · intro h
        refine ⟨h [] i is rfl, fun pre j post htail => ?_⟩
        exact h (i :: pre) j post (congrArg (i :: ·) htail)

theorem steps_append {s : σ} {is js : List ι} :
    Steps step P s (is ++ js) ↔ Steps step P s is ∧ Steps step P (is.foldl step s) js := by
  induction is generalizing s with
  | nil => simp [Steps]
  | cons i is ih => rw [List.cons_append, Steps, Steps, ih, and_assoc, List.foldl_cons]

/-- A condition on the inputs may be added to the steps. -/
theorem Steps.and_mem {Q : ι → Prop} {s : σ} {is : List ι} (h : Steps step P s is)
    (hQ : ∀ i ∈ is, Q i) : Steps step (fun s i => P s i ∧ Q i) s is := by
  refine steps_iff.2 fun pre i post his => ⟨steps_iff.1 h pre i post his, hQ i ?_⟩
  rw [his]
  exact List.mem_append_right pre List.mem_cons_self

/-- **The invariant rule.** -/
theorem Steps.invariant (hstep : ∀ s i, I s → P s i → I (step s i)) {s : σ} {is : List ι} (hs : I s)
    (h : Steps step P s is) : I (is.foldl step s) := by
  induction is generalizing s with
  | nil => exact hs
  | cons i is ih => exact ih (hstep s i hs h.1) h.2

/-- The invariant rule where every step keeps the invariant. -/
theorem invariant (hstep : ∀ s i, I s → I (step s i)) {s : σ} (is : List ι) (hs : I s) :
    I (is.foldl step s) := by
  induction is generalizing s with
  | nil => exact hs
  | cons i is ih => exact ih (hstep s i hs)

/-- Two conditions that say the same of the steps of a run hold of the run together. -/
theorem Steps.congr {Q R : σ → ι → Prop} {s : σ} {is : List ι} (hR : Steps step R s is)
    (h : ∀ s i, R s i → (P s i ↔ Q s i)) : Steps step P s is ↔ Steps step Q s is := by
  induction is generalizing s with
  | nil => exact Iff.rfl
  | cons i is ih => rw [Steps, Steps, h s i hR.1, ih hR.2]

/-- Two conditions that say the same wherever an invariant holds, which the steps that meet them keep, hold
of the run together. -/
theorem Steps.congr_of_invariant {Q R : σ → ι → Prop} {s : σ} {is : List ι} (hR : Steps step R s is)
    (hs : I s) (h : ∀ s i, I s → R s i → (P s i ↔ Q s i))
    (hstep : ∀ s i, I s → R s i → P s i → I (step s i)) :
    Steps step P s is ↔ Steps step Q s is := by
  induction is generalizing s with
  | nil => exact Iff.rfl
  | cons i is ih =>
      rw [Steps, Steps, ← h s i hs hR.1]
      exact and_congr_right fun hP => ih hR.2 (hstep s i hs hR.1 hP)

/-- **The exact rule.**  Where every step of a run that keeps to `Q` keeps `I` just when it meets `P`, the
run keeps `I` just when all its steps meet `P`. -/
theorem Steps.always_iff {Q : σ → ι → Prop} (hstep : ∀ s i, I s → Q s i → (I (step s i) ↔ P s i)) {s : σ}
    {is : List ι} (hQ : Steps step Q s is) (hs : I s) :
    (∀ pre, pre <+: is → I (pre.foldl step s)) ↔ Steps step P s is := by
  induction is generalizing s with
  | nil =>
      refine ⟨fun _ => trivial, fun _ pre h => ?_⟩
      rw [List.prefix_nil.1 h]
      exact hs
  | cons i is ih =>
      rw [Steps]
      constructor
      · intro h
        have hi : I (step s i) := h [i] ((List.prefix_cons_inj i).2 (List.nil_prefix))
        refine ⟨(hstep s i hs hQ.1).1 hi, (ih hQ.2 hi).1 fun pre hpre => ?_⟩
        exact h (i :: pre) ((List.prefix_cons_inj i).2 hpre)
      · rintro ⟨hi, his⟩ pre hpre
        have hnext := (hstep s i hs hQ.1).2 hi
        cases pre with
        | nil => exact hs
        | cons j pre =>
            obtain ⟨rfl, htail⟩ := List.cons_prefix_cons.1 hpre
            exact (ih hQ.2 hnext).2 his pre htail

/-- The exact rule where any step may come. -/
theorem always_iff (hstep : ∀ s i, I s → (I (step s i) ↔ P s i)) {s : σ} {is : List ι} (hs : I s) :
    (∀ pre, pre <+: is → I (pre.foldl step s)) ↔ Steps step P s is :=
  Steps.always_iff (fun s i hI _ => hstep s i hI)
    (steps_iff.2 fun _ _ _ _ => trivial : Steps step (fun _ _ => True) s is) hs

/-- A property holds all the way just when a stronger one does that goes on wherever the property does. -/
theorem always_congr {J : σ → Prop} (hJ : ∀ s, J s → I s)
    (hstep : ∀ s i, J s → I (step s i) → J (step s i)) {s : σ} {is : List ι} (hs : J s) :
    (∀ pre, pre <+: is → I (pre.foldl step s)) ↔ ∀ pre, pre <+: is → J (pre.foldl step s) := by
  constructor
  · intro h pre
    induction pre using List.reverseRecOn with
    | nil => exact fun _ => hs
    | append_singleton pre i ih =>
        intro hpre
        have hnow := ih ((List.prefix_append pre [i]).trans hpre)
        have hnext := h (pre ++ [i]) hpre
        rw [List.foldl_concat] at hnext ⊢
        exact hstep _ i hnow hnext
  · exact fun h pre hpre => hJ _ (h pre hpre)

/-- **The exact rule from a first input on.**  Where an input that meets `F` brings `I` about from any state
and every other keeps `I` just when the step meets `P`, the run keeps `I` from the first such input on just when
all later steps meet `P`. -/
theorem after_iff {F : ι → Prop} {s : σ} {is : List ι} (hset : ∀ s, ∀ i ∈ is, F i → I (step s i))
    (hstep : ∀ s, ∀ i ∈ is, I s → (I (step s i) ↔ P s i)) :
    (∀ pre, pre <+: is → (∃ i ∈ pre, F i) → I (pre.foldl step s)) ↔
      ∀ pre i, pre ++ [i] <+: is → (∃ j ∈ pre, F j) → P (pre.foldl step s) i := by
  have hmem : ∀ {pre : List ι} {i : ι}, pre ++ [i] <+: is → i ∈ is := by
    intro pre i hpre
    exact hpre.subset (List.mem_append_right pre List.mem_cons_self)
  have hinit : ∀ {pre : List ι} {i : ι}, pre ++ [i] <+: is → pre <+: is := by
    intro pre i hpre
    exact (List.prefix_append pre [i]).trans hpre
  constructor
  · rintro h pre i hpre ⟨j, hj, hFj⟩
    have hnow := h pre (hinit hpre) ⟨j, hj, hFj⟩
    have hnext := h (pre ++ [i]) hpre ⟨j, List.mem_append_left [i] hj, hFj⟩
    rw [List.foldl_concat] at hnext
    exact (hstep _ i (hmem hpre) hnow).1 hnext
  · intro h pre
    induction pre using List.reverseRecOn with
    | nil =>
        rintro - ⟨j, hj, -⟩
        cases hj
    | append_singleton pre i ih =>
        rintro hpre ⟨j, hj, hFj⟩
        rw [List.foldl_concat]
        by_cases hFi : F i
        · exact hset _ i (hmem hpre) hFi
        · have hjpre : j ∈ pre := by
            rcases List.mem_append.1 hj with hj | hj
            · exact hj
            · rw [List.mem_singleton.1 hj] at hFj
              exact absurd hFj hFi
          have hnow := ih (hinit hpre) ⟨j, hjpre, hFj⟩
          exact (hstep _ i (hmem hpre) hnow).2 (h pre i hpre ⟨j, hjpre, hFj⟩)

end Run
