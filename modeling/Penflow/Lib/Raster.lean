import Mathlib.Algebra.Ring.Nat
import Mathlib.Data.Nat.Notation

/-!
# Row by row

A picture is kept as the list of its pixels, one row behind the other, and drawn from its first pixel on.
`Filled` says how far the drawing is; a drawing grows by a pixel or by a whole row, and the place of a
pixel is read off it when it is complete.
-/

namespace Raster

variable {α : Type*} {w n : ℕ} {f : ℕ → ℕ → Option α} {ps qs : List α}

/-- The list is the first `n` pixels of the picture `f` of width `w`, where `f x y` is the pixel in column
`x` of row `y`. -/
structure Filled (w : ℕ) (f : ℕ → ℕ → Option α) (n : ℕ) (ps : List α) : Prop where
  length : ps.length = n
  pixel : ∀ i < n, ps[i]? = f (i % w) (i / w)

theorem Filled.nil : Filled w f 0 [] := by
  constructor
  · rfl
  · intro i hi
    omega

/-- One pixel more. -/
theorem Filled.concat (h : Filled w f n ps) {p : α} (hp : f (n % w) (n / w) = some p) :
    Filled w f (n + 1) (ps ++ [p]) := by
  constructor
  · rw [List.length_append, h.length, List.length_singleton]
  · intro i hi
    rcases Nat.lt_or_ge i n with hlt | hge
    · rw [List.getElem?_append_left (by rw [h.length]; exact hlt)]
      exact h.pixel i hlt
    · obtain rfl : i = n := by omega
      rw [← h.length, List.getElem?_concat_length, h.length]
      exact hp.symm

/-- The column and the row of a place. -/
theorem column_mod {x : ℕ} (hx : x < w) (y : ℕ) : (y * w + x) % w = x := by
  rw [Nat.mul_comm, Nat.mul_add_mod, Nat.mod_eq_of_lt hx]

theorem row_div {x : ℕ} (hx : x < w) (y : ℕ) : (y * w + x) / w = y := by
  rw [Nat.mul_comm, Nat.mul_add_div (by omega), Nat.div_eq_of_lt hx, Nat.add_zero]

/-- One pixel more, in a row that is begun. -/
theorem Filled.concat_in_row {x y : ℕ} (h : Filled w f (y * w + x) ps) (hx : x < w) {p : α}
    (hp : f x y = some p) : Filled w f (y * w + (x + 1)) (ps ++ [p]) := by
  apply Filled.concat h
  rw [column_mod hx, row_div hx]
  exact hp

/-- One row more. -/
theorem Filled.append_row {y : ℕ} (h : Filled w f (y * w) ps) (hlen : qs.length = w)
    (hrow : ∀ x < w, qs[x]? = f x y) : Filled w f ((y + 1) * w) (ps ++ qs) := by
  constructor
  · rw [List.length_append, h.length, hlen, Nat.add_mul, Nat.one_mul]
  · intro i hi
    rcases Nat.lt_or_ge i (y * w) with hlt | hge
    · rw [List.getElem?_append_left (by rw [h.length]; exact hlt)]
      exact h.pixel i hlt
    · obtain ⟨x, rfl⟩ := Nat.exists_eq_add_of_le hge
      have hx : x < w := by
        rw [Nat.add_mul, Nat.one_mul] at hi
        omega
      rw [List.getElem?_append_right (by rw [h.length]; exact hge), h.length, Nat.add_sub_cancel_left,
        column_mod hx, row_div hx]
      exact hrow x hx

/-- **The pixels of a complete picture.** -/
theorem Filled.exists_pixel {h x y : ℕ} (hps : Filled w f (h * w) ps) (hx : x < w) (hy : y < h) :
    ∃ p, ps[y * w + x]? = some p ∧ f x y = some p := by
  have hplace : y * w + x < h * w := by
    calc y * w + x < y * w + w := by omega
      _ = (y + 1) * w := by rw [Nat.add_mul, Nat.one_mul]
      _ ≤ h * w := Nat.mul_le_mul_right w hy
  have hpixel := hps.pixel _ hplace
  rw [column_mod hx, row_div hx] at hpixel
  have hlt : y * w + x < ps.length := by
    rw [hps.length]
    exact hplace
  refine ⟨ps[y * w + x], List.getElem?_eq_getElem hlt, ?_⟩
  rw [← hpixel, List.getElem?_eq_getElem hlt]

end Raster
