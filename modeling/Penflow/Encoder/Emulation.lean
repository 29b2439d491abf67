import Penflow.Lib.AnnexB

/-!
# Emulation prevention

An RBSP is put into a byte stream with a `03` behind every `00 00` that a small byte would follow, so
that no start code appears inside it.  `EmulationFree` is what escaping achieves.
-/

namespace Penflow

open AnnexB

def rbspUnescape : List UInt8 → List UInt8
  | b₀ :: b₁ :: b₂ :: t =>
    if b₀ = 0 ∧ b₁ = 0 ∧ b₂ = 3 then 0 :: 0 :: rbspUnescape t
    else b₀ :: rbspUnescape (b₁ :: b₂ :: t)
  | b :: t => b :: rbspUnescape t
  | [] => []

def rbspEscape : List UInt8 → List UInt8
  | b₀ :: b₁ :: b₂ :: t =>
    if b₀ = 0 ∧ b₁ = 0 ∧ b₂ ≤ 3 then 0 :: 0 :: 3 :: rbspEscape (b₂ :: t)
    else b₀ :: rbspEscape (b₁ :: b₂ :: t)
  | b :: t => b :: rbspEscape t
  | [] => []

/-- No three bytes `00 00 b` with `b` at most 2. -/
def EmulationFree : List UInt8 → Prop
  | b₀ :: b₁ :: b₂ :: t => ¬ (b₀ = 0 ∧ b₁ = 0 ∧ b₂ ≤ 2) ∧ EmulationFree (b₁ :: b₂ :: t)
  | _ => True

/-! ### The first bytes and the last byte stay -/

theorem rbspUnescape_head (x : List UInt8) : (rbspUnescape x).head? = x.head? := by
  fun_cases rbspUnescape x with
  | case1 b₀ b₁ b₂ t h => simp [h.1]
  | _ => rfl

theorem rbspEscape_head (x : List UInt8) : (rbspEscape x).head? = x.head? := by
  fun_cases rbspEscape x with
  | case1 b₀ b₁ b₂ t h => simp [h.1]
  | _ => rfl

theorem take_two_cons (b : UInt8) {x y : List UInt8} (h : x.head? = y.head?) :
    (b :: x).take 2 = (b :: y).take 2 := by
  rw [List.take_succ_cons, List.take_succ_cons, List.take_one, List.take_one, h]

theorem rbspUnescape_take_two (x : List UInt8) : (rbspUnescape x).take 2 = x.take 2 := by
  fun_cases rbspUnescape x with
  | case1 b₀ b₁ b₂ t h => simp [h.1, h.2.1]
  | case2 b₀ b₁ b₂ t h => exact take_two_cons b₀ (rbspUnescape_head (b₁ :: b₂ :: t))
  | case3 b t h => exact take_two_cons b (rbspUnescape_head t)
  | case4 => rfl

theorem rbspEscape_take_two (x : List UInt8) : (rbspEscape x).take 2 = x.take 2 := by
  fun_cases rbspEscape x with
  | case1 b₀ b₁ b₂ t h => simp [h.1, h.2.1]
  | case2 b₀ b₁ b₂ t h => exact take_two_cons b₀ (rbspEscape_head (b₁ :: b₂ :: t))
  | case3 b t h => exact take_two_cons b (rbspEscape_head t)
  | case4 => rfl

/-- The first two bytes out are the first two bytes in. -/
theorem rbspEscape_cons_cons (b₀ b₁ : UInt8) (t : List UInt8) :
    ∃ u, rbspEscape (b₀ :: b₁ :: t) = b₀ :: b₁ :: u := by
  have htake := rbspEscape_take_two (b₀ :: b₁ :: t)
  rw [← List.take_append_drop 2 (rbspEscape (b₀ :: b₁ :: t)), htake]
  exact ⟨_, rfl⟩

theorem rbspEscape_getLast? (x : List UInt8) : (rbspEscape x).getLast? = x.getLast? := by
  fun_induction rbspEscape x with
  | case1 b₀ b₁ b₂ t h ih => simp [List.getLast?_cons, ih]
  | case2 b₀ b₁ b₂ t h ih => simp [List.getLast?_cons, ih]
  | case3 b t h ih => simp [List.getLast?_cons, ih]
  | case4 => rfl

/-! ### Unescaping undoes escaping -/

/-- After an inserted `03` the escaper starts again, and so does the unescaper; a literal `03` behind `00 00`
has an inserted one in front of it. -/
theorem rbspUnescape_escape (x : List UInt8) : rbspUnescape (rbspEscape x) = x := by
  fun_induction rbspEscape x with
  | case1 b₀ b₁ b₂ t h ih =>
      obtain ⟨rfl, rfl, -⟩ := h
      rw [rbspUnescape, if_pos ⟨rfl, rfl, rfl⟩, ih]
  | case2 b₀ b₁ b₂ t h ih =>
      obtain ⟨u, hu⟩ := rbspEscape_cons_cons b₁ b₂ t
      have hthree : ¬ (b₀ = 0 ∧ b₁ = 0 ∧ b₂ = 3) := by
        rintro ⟨h0, h1, rfl⟩
        exact h ⟨h0, h1, by decide⟩
      rw [hu] at ih ⊢
      rw [rbspUnescape, if_neg hthree, ih]
  | case3 b t h ih =>
      cases t with
      | nil => rfl
      | cons b₁ t =>
          cases t with
          | nil => rfl
          | cons b₂ t => exact absurd rfl (h b₁ b₂ t)
  | case4 => rfl

/-! ### No start code inside -/

theorem EmulationFree.of_cons {b : UInt8} {x : List UInt8} (h : EmulationFree (b :: x)) :
    EmulationFree x := by
  match x, h with
  | [], _ => trivial
  | [_], _ => trivial
  | _ :: _ :: _, h => exact h.2

theorem emulationFree_iff {x : List UInt8} :
    EmulationFree x ↔ ∀ b ≤ 2, ¬ [0, 0, b] <:+: x := by
  induction x with
  | nil => simp [EmulationFree]
  | cons b₀ x ih =>
      match x, ih with
      | [], _ => simp [EmulationFree, List.infix_cons_iff, List.cons_prefix_cons]
      | [b₁], _ => simp [EmulationFree, List.infix_cons_iff, List.cons_prefix_cons]
      | b₁ :: b₂ :: t, ih =>
          rw [EmulationFree, ih]
          constructor
          · rintro ⟨hhead, htail⟩ b hb hin
            rcases List.infix_cons_iff.1 hin with hpre | hin
            · simp only [List.cons_prefix_cons, List.nil_prefix, and_true] at hpre
              obtain ⟨h0, h1, rfl⟩ := hpre
              exact hhead ⟨h0.symm, h1.symm, hb⟩
            · exact htail b hb hin
          · intro h
            refine ⟨?_, fun b hb hin => h b hb (List.infix_cons hin)⟩
            rintro ⟨rfl, rfl, hle⟩
            exact h b₂ hle (List.prefix_append [0, 0, b₂] t).isInfix

/-- A byte goes in front unless it completes `00 00 b`. -/
theorem emulationFree_cons {b : UInt8} {x : List UInt8} (hx : EmulationFree x)
    (h : ∀ c t, x = 0 :: c :: t → b = 0 → ¬ c ≤ 2) : EmulationFree (b :: x) := by
  match x, hx, h with
  | [], _, _ => trivial
  | [_], _, _ => trivial
  | b₁ :: b₂ :: t, hx, h =>
      refine ⟨?_, hx⟩
      rintro ⟨hb, rfl, hle⟩
      exact h b₂ t rfl hb hle

/-- **Escaping works.** -/
theorem rbspEscape_emulationFree (x : List UInt8) : EmulationFree (rbspEscape x) := by
  fun_induction rbspEscape x with
  | case1 b₀ b₁ b₂ t h ih =>
      refine emulationFree_cons (emulationFree_cons (emulationFree_cons ih ?_) ?_) ?_
      · intro c u _ h3
        exact absurd h3 (by decide)
      · intro c u h3 _
        exact absurd (List.cons.inj h3).1 (by decide)
      · intro c u h3 _
        rw [← (List.cons.inj (List.cons.inj h3).2).1]
        decide
  | case2 b₀ b₁ b₂ t h ih =>
      refine emulationFree_cons ih fun c u hx hb => ?_
      obtain ⟨v, hv⟩ := rbspEscape_cons_cons b₁ b₂ t
      rw [hv] at hx
      obtain ⟨h1, h2⟩ := List.cons.inj hx
      obtain ⟨rfl, -⟩ := List.cons.inj h2
      intro hc
      exact h ⟨hb, h1, UInt8.le_trans hc (by decide)⟩
  | case3 b t h ih =>
      refine emulationFree_cons ih fun c u hx _ => ?_
      have htake := rbspEscape_take_two t
      rw [hx] at htake
      match t, h, htake with
      | b₁ :: b₂ :: t, h, _ => exact absurd rfl (h b₁ b₂ t)
      | [], _, htake => simp at htake
      | [_], _, htake => simp at htake
  | case4 => trivial

/-- Each start code has a `00 00 b` in it. -/
theorem EmulationFree.not_code {x : List UInt8} (h : EmulationFree x) :
    ¬ shortCode <:+: x ∧ ¬ longCode <:+: x := by
  have hfree := emulationFree_iff.1 h
  constructor
  · exact hfree 1 (by decide)
  · intro hcode
    have hzeros : [0, 0, 0] <:+: longCode := (List.prefix_append [0, 0, 0] [1]).isInfix
    exact hfree 0 (by decide) (hzeros.trans hcode)

theorem EmulationFree.not_begins {x : List UInt8} (h : EmulationFree x) : ¬ Begins x := by
  match x, h with
  | [], _ => simp [Begins, longCode, shortCode]
  | [_], _ => simp [Begins, longCode, shortCode, List.cons_prefix_cons]
  | [_, _], _ => simp [Begins, longCode, shortCode, List.cons_prefix_cons]
  | b₀ :: b₁ :: b₂ :: t, h =>
      intro hb
      obtain ⟨h0, h1, h2⟩ := (begins_iff b₀ b₁ b₂ t).1 hb
      refine h.1 ⟨h0, h1, ?_⟩
      rcases h2 with rfl | ⟨rfl, -⟩ <;> decide

theorem EmulationFree.free {x : List UInt8} (h : EmulationFree x) : Free [] x := by
  induction x with
  | nil => trivial
  | cons b x ih =>
      refine ⟨?_, ih h.of_cons⟩
      rw [List.append_nil]
      exact h.not_begins

end Penflow
