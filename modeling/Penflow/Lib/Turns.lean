import Mathlib.Data.List.Basic
import Mathlib.Data.Nat.Notation

/-!
# Turns on a stream

Several writers put messages on one stream, a piece at a time.  `Turns` is a stream on which they take turns:
the messages that are out, each with its writer, and at most one more, of which a part is out.  A writer puts
the next piece of its message while no message of another writer is out in part (`Free`); what the stream
grows by is that piece (`stream_put`), and a message is begun with its first piece (`begun_put`).
-/

structure Turns (W M : Type*) where
  whole : List (W × M)
  /-- a writer with its message, of which so much is out -/
  current : Option (W × M × ℕ)

namespace Turns

variable {W M α : Type*}

/-- The message of which a part is out. -/
def last (t : Turns W M) : List (W × M) := t.current.toList.map fun c => (c.1, c.2.1)

/-- The messages begun. -/
def begun (t : Turns W M) : List (W × M) := t.whole ++ t.last

/-- How much of the last message is out. -/
def out (t : Turns W M) : ℕ := t.current.elim 0 fun c => c.2.2

/-- The messages of one writer. -/
def ofWriter [DecidableEq W] (w : W) (ms : List (W × M)) : List M :=
  (ms.filter fun m => m.1 = w).map Prod.snd

def stream (encode : M → List α) (t : Turns W M) : List α :=
  t.whole.flatMap (fun m => encode m.2) ++ (t.last.flatMap fun m => encode m.2).take t.out

/-- It is `w`'s turn, `n` elements of whose message `m` are out. -/
def Free (t : Turns W M) (w : W) (m : M) (n : ℕ) : Prop :=
  t.current = if n = 0 then none else some (w, m, n)

/-- `w` puts `k` elements behind the first `n` of `m`. -/
def put (encode : M → List α) (t : Turns W M) (w : W) (m : M) (n k : ℕ) : Turns W M :=
  if n + k < (encode m).length then { t with current := if n + k = 0 then none else some (w, m, n + k) }
  else ⟨t.whole ++ [(w, m)], none⟩

theorem last_length (t : Turns W M) : t.last.length ≤ 1 := by
  rw [last, List.length_map]
  cases t.current with
  | none => exact Nat.zero_le 1
  | some c => exact Nat.le_refl 1

section ofWriter

variable [DecidableEq W]

theorem ofWriter_append (w : W) (ms ms' : List (W × M)) :
    ofWriter w (ms ++ ms') = ofWriter w ms ++ ofWriter w ms' := by
  rw [ofWriter, List.filter_append, List.map_append]
  rfl

theorem ofWriter_same (w : W) (m : M) : ofWriter w [(w, m)] = [m] := by
  simp [ofWriter]

theorem ofWriter_other {w v : W} (h : v ≠ w) (m : M) : ofWriter w [(v, m)] = [] := by
  simp [ofWriter, h]

theorem mem_ofWriter {w : W} {m : M} {ms : List (W × M)} : m ∈ ofWriter w ms ↔ (w, m) ∈ ms := by
  simp [ofWriter]

/-- What the messages of one writer stand for. -/
theorem filterMap_ofWriter {β : Type*} {g : M → Option β} {p : β → Bool} {w : W} {ms : List (W × M)}
    (h : ∀ x ∈ ms, (g x.2).filter p = if x.1 = w then g x.2 else none) :
    ((ms.map Prod.snd).filterMap g).filter p = (ofWriter w ms).filterMap g := by
  induction ms with
  | nil => rfl
  | cons x ms ih =>
      have hx := h x List.mem_cons_self
      have hrest := ih fun y hy => h y (List.mem_cons_of_mem x hy)
      by_cases hw : x.1 = w
      · rw [if_pos hw] at hx
        have hsplit : ofWriter w (x :: ms) = x.2 :: ofWriter w ms := by
          simp [ofWriter, hw]
        rw [hsplit, List.map_cons]
        cases hg : g x.2 with
        | none => rw [List.filterMap_cons_none hg, List.filterMap_cons_none hg, hrest]
        | some b =>
            rw [hg, Option.filter_some_eq_some] at hx
            rw [List.filterMap_cons_some hg, List.filterMap_cons_some hg, List.filter_cons_of_pos hx, hrest]
      · rw [if_neg hw] at hx
        have hsplit : ofWriter w (x :: ms) = ofWriter w ms := by
          simp [ofWriter, hw]
        rw [hsplit, List.map_cons]
        cases hg : g x.2 with
        | none => rw [List.filterMap_cons_none hg, hrest]
        | some b =>
            rw [hg, Option.filter_some_eq_none] at hx
            rw [List.filterMap_cons_some hg, List.filter_cons_of_neg hx, hrest]

end ofWriter

variable {encode : M → List α} {t : Turns W M} {w : W} {m : M} {n k : ℕ}

theorem Free.last (h : t.Free w m n) : t.last = if n = 0 then [] else [(w, m)] := by
  rw [Turns.last, h]
  split <;> rfl

theorem Free.stream (h : t.Free w m n) :
    t.stream encode = t.whole.flatMap (fun m => encode m.2) ++ (encode m).take n := by
  rw [Turns.stream, h.last, out, h]
  split
  · rename_i hzero
    rw [hzero]
    rfl
  · simp

/-- **The stream grows by the piece.** -/
theorem stream_put (h : t.Free w m n) (hk : n + k ≤ (encode m).length) :
    (t.put encode w m n k).stream encode = t.stream encode ++ ((encode m).drop n).take k := by
  have hpiece : (encode m).take n ++ ((encode m).drop n).take k = (encode m).take (n + k) :=
    List.take_add.symm
  rw [h.stream, List.append_assoc, hpiece, put]
  split
  · have hfree : (⟨t.whole, if n + k = 0 then none else some (w, m, n + k)⟩ : Turns W M).Free w m (n + k) := rfl
    exact hfree.stream
  · rw [List.take_of_length_le (by omega)]
    simp [Turns.stream, Turns.last, out]

/-- A message is begun with its first piece. -/
theorem begun_put (h : t.Free w m n) (hk : 0 < n + k) :
    (t.put encode w m n k).begun = if n = 0 then t.begun ++ [(w, m)] else t.begun := by
  have hput : (t.put encode w m n k).begun = t.whole ++ [(w, m)] := by
    rw [put]
    split
    · rw [if_neg (by omega)]
      rfl
    · exact List.append_nil _
  rw [hput, begun, h.last]
  split
  · rw [List.append_nil]
  · rfl

end Turns
