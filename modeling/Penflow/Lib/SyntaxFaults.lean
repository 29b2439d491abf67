import Penflow.Lib.BitSyntax

/-!
# The failures of a reader

A reader `Avoids` a failure when no input makes it end in that failure.  Readers put together from
readers that avoid it avoid it; and a sequence that does not avoid it fails so in one of its parts,
behind the bits its first part has taken (`parse_bind_eq_error`).
-/

namespace BitSyntax

open BitString

namespace SyntaxReader

variable {ε α β : Type} {e : ε}

/-- No input makes `q` end in `e`. -/
def Avoids (q : SyntaxReader ε α) (e : ε) : Prop := ∀ s, q.parse s ≠ .error e

/-- **Where a sequence fails.** -/
theorem parse_bind_eq_error {q : SyntaxReader ε α} {f : α → SyntaxReader ε β} {s : List Bool} :
    (q >>= f).parse s = .error e ↔
      q.parse s = .error e ∨ ∃ a s', q.parse s = .ok (a, s') ∧ (f a).parse s' = .error e := by
  rw [parse_bind]
  cases q.parse s with
  | error e' =>
      constructor
      · intro h
        cases h
        exact .inl rfl
      · rintro (h | ⟨a, s', h, -⟩)
        · cases h
          rfl
        · cases h
  | ok x =>
      constructor
      · intro h
        exact .inr ⟨x.1, x.2, rfl, h⟩
      · rintro (h | ⟨a, s', h, hf⟩)
        · cases h
        · cases h
          exact hf

/-- A sequence whose first part avoids the failure. -/
theorem Avoids.parse_bind_eq_error {q : SyntaxReader ε α} (h : q.Avoids e)
    {f : α → SyntaxReader ε β} {s : List Bool} :
    (q >>= f).parse s = .error e ↔
      ∃ a s', q.parse s = .ok (a, s') ∧ (f a).parse s' = .error e := by
  rw [SyntaxReader.parse_bind_eq_error]
  exact or_iff_right (h s)

/-- A sequence whose second part avoids it. -/
theorem parse_bind_eq_error_of_avoids {q : SyntaxReader ε α} {f : α → SyntaxReader ε β}
    (h : ∀ a, (f a).Avoids e) {s : List Bool} :
    (q >>= f).parse s = .error e ↔ q.parse s = .error e := by
  rw [SyntaxReader.parse_bind_eq_error]
  refine or_iff_left ?_
  rintro ⟨a, s', -, hf⟩
  exact h a s' hf

/-! ### Readers that avoid a failure -/

theorem avoids_pure (a : α) : (pure a : SyntaxReader ε α).Avoids e := by
  intro s h
  cases h

theorem avoids_fail {e' : ε} (h : e' ≠ e) : (fail e' : SyntaxReader ε α).Avoids e := by
  intro s hs
  cases hs
  exact h rfl

theorem Avoids.bind {q : SyntaxReader ε α} {f : α → SyntaxReader ε β} (hq : q.Avoids e)
    (hf : ∀ a, (f a).Avoids e) : (q >>= f).Avoids e := by
  intro s h
  exact hq s ((parse_bind_eq_error_of_avoids hf).1 h)

theorem avoids_u {e' : ε} (h : e' ≠ e) (n : ℕ) : (u e' n).Avoids e := by
  intro s hs
  simp only [parse, u] at hs
  cases hread : natRead n s with
  | none =>
      rw [hread] at hs
      cases hs
      exact h rfl
  | some x =>
      rw [hread] at hs
      cases hs

theorem avoids_ue {e' : ε} (h : e' ≠ e) : (ue e').Avoids e := by
  intro s hs
  simp only [parse, ue] at hs
  cases hread : ueRead s with
  | none =>
      rw [hread] at hs
      cases hs
      exact h rfl
  | some x =>
      rw [hread] at hs
      cases hs

theorem avoids_se {e' : ε} (h : e' ≠ e) : (se e').Avoids e := by
  intro s hs
  simp only [parse, se] at hs
  cases hread : seRead s with
  | none =>
      rw [hread] at hs
      cases hs
      exact h rfl
  | some x =>
      rw [hread] at hs
      cases hs

theorem Avoids.given {c : Prop} [Decidable c] {q : SyntaxReader ε α} (h : q.Avoids e) :
    (given c q).Avoids e := by
  by_cases hc : c
  · rw [given_pos hc]
    exact h.bind fun a => avoids_pure _
  · rw [given_neg hc]
    exact avoids_pure none

theorem Avoids.flagged {e' : ε} (he : e' ≠ e) {q : SyntaxReader ε α} (h : q.Avoids e) :
    (flagged e' q).Avoids e := (avoids_u he 1).bind fun _ => h.given

theorem Avoids.times {q : SyntaxReader ε α} (h : q.Avoids e) (n : ℕ) : (times n q).Avoids e := by
  induction n with
  | zero => exact avoids_pure []
  | succ n ih => exact h.bind fun a => ih.bind fun as => avoids_pure (a :: as)

/-! ### Behind a flag -/

/-- A block that is there. -/
theorem flagged_parse_eq_some {e' : ε} {q : SyntaxReader ε α} {s s'' : List Bool} {a : α} :
    (flagged e' q).parse s = .ok (some a, s'') ↔
      ∃ s', (u e' 1).parse s = .ok (1, s') ∧ q.parse s' = .ok (a, s'') := by
  rw [flagged, parse_bind_eq_ok]
  constructor
  · rintro ⟨flag, s', hflag, hq⟩
    by_cases hone : flag = 1
    · subst hone
      rw [given_pos rfl, map_eq_pure_bind, parse_bind_pure] at hq
      obtain ⟨b, hb, heq⟩ := hq
      cases heq
      exact ⟨s', hflag, hb⟩
    · rw [given_neg hone] at hq
      cases hq
  · rintro ⟨s', hflag, hq⟩
    refine ⟨1, s', hflag, ?_⟩
    rw [given_pos rfl, map_eq_pure_bind, parse_bind_pure]
    exact ⟨a, hq, rfl⟩

/-- A block behind a flag fails where it is there. -/
theorem flagged_parse_eq_error {e' : ε} (he : e' ≠ e) {q : SyntaxReader ε α} {s : List Bool} :
    (flagged e' q).parse s = .error e ↔
      ∃ s', (u e' 1).parse s = .ok (1, s') ∧ q.parse s' = .error e := by
  rw [flagged, (avoids_u he 1).parse_bind_eq_error]
  constructor
  · rintro ⟨flag, s', hflag, hq⟩
    by_cases hone : flag = 1
    · subst hone
      rw [given_pos rfl, map_eq_pure_bind,
        parse_bind_eq_error_of_avoids fun b => avoids_pure _] at hq
      exact ⟨s', hflag, hq⟩
    · rw [given_neg hone] at hq
      exact absurd hq (avoids_pure none s')
  · rintro ⟨s', hflag, hq⟩
    refine ⟨1, s', hflag, ?_⟩
    rw [given_pos rfl, map_eq_pure_bind, parse_bind_eq_error_of_avoids fun b => avoids_pure _]
    exact hq

end SyntaxReader

end BitSyntax
