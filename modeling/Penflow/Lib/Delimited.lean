import Penflow.Lib.Turns

/-!
# Self-delimiting messages

A receiver takes the first message off the front of a stream, once it is there in full.  Where it undoes the
encoding of a message whatever comes behind it, and sees nothing in a message that is cut off, a stream can be
read in one way only: what has been received is a front of what was sent (`Delimited.received`).  What writers put on a
stream in turns can be read so (`sent_turns`).
-/

/-- Nothing, or a part of a message with `P`. -/
def IsCut {M α : Type*} (encode : M → List α) (P : M → Prop) (cut : List α) : Prop :=
  cut = [] ∨ ∃ m n, P m ∧ n < (encode m).length ∧ cut = (encode m).take n

/-- `next` is a receiver for the messages with `P`. -/
structure Delimited {M α : Type*} (encode : M → List α) (next : List α → Option (M × List α)) (P : M → Prop) :
    Prop where
  next_encode : ∀ m, P m → ∀ rest, next (encode m ++ rest) = some (m, rest)
  next_cut : ∀ cut, IsCut encode P cut → next cut = none

namespace Delimited

variable {M α : Type*} {encode : M → List α} {next : List α → Option (M × List α)} {P : M → Prop}

/-- **What has been received is a front of what was sent**, where behind the messages sent there is none. -/
theorem received (h : Delimited encode next P) {got sent : List M} (hgot : ∀ m ∈ got, P m)
    (hsent : ∀ m ∈ sent, P m) {unread cut : List α} (hcut : next cut = none)
    (hstream : got.flatMap encode ++ unread = sent.flatMap encode ++ cut) :
    ∃ rest, sent = got ++ rest ∧ unread = rest.flatMap encode ++ cut := by
  induction got generalizing sent with
  | nil => exact ⟨sent, rfl, hstream⟩
  | cons m got ih =>
      have hfirst : next (sent.flatMap encode ++ cut) = some (m, got.flatMap encode ++ unread) := by
        rw [← hstream, List.flatMap_cons, List.append_assoc]
        exact h.next_encode m (hgot m List.mem_cons_self) _
      cases sent with
      | nil =>
          rw [List.flatMap_nil, List.nil_append, hcut] at hfirst
          cases hfirst
      | cons m' sent =>
          rw [List.flatMap_cons, List.append_assoc, h.next_encode m' (hsent m' List.mem_cons_self)] at hfirst
          obtain ⟨rfl, htail⟩ := Prod.mk.inj (Option.some.inj hfirst)
          obtain ⟨rest, hrest, hunread⟩ := ih (fun x hx => hgot x (List.mem_cons_of_mem _ hx))
            (fun x hx => hsent x (List.mem_cons_of_mem _ hx)) htail.symm
          exact ⟨rest, congrArg (m' :: ·) hrest, hunread⟩

end Delimited

/-- **What is on a stream of turns**: whole messages, and a part of at most one more. -/
theorem sent_turns {W M α : Type*} {encode : M → List α} {P : M → Prop} (t : Turns W M)
    (hbegun : ∀ m ∈ t.begun, P m.2) :
    ∃ sent cut, sent <+: t.begun ∧ t.stream encode = (sent.map Prod.snd).flatMap encode ++ cut ∧
      IsCut encode P cut := by
  have hwhole : t.whole.flatMap (fun m => encode m.2) = (t.whole.map Prod.snd).flatMap encode := by
    rw [List.flatMap_map]
  cases hcurrent : t.current with
  | none =>
      refine ⟨t.whole, [], List.prefix_append _ _, ?_, .inl rfl⟩
      rw [Turns.stream, Turns.last, hcurrent, hwhole]
      simp
  | some c =>
      obtain ⟨w, m, n⟩ := c
      have hlast : t.last = [(w, m)] := by
        rw [Turns.last, hcurrent]
        rfl
      have hstream : t.stream encode = (t.whole.map Prod.snd).flatMap encode ++ (encode m).take n := by
        rw [Turns.stream, hlast, Turns.out, hcurrent, hwhole]
        simp
      by_cases hn : n < (encode m).length
      · refine ⟨t.whole, (encode m).take n, List.prefix_append _ _, hstream, .inr ⟨m, n, ?_, hn, rfl⟩⟩
        apply hbegun (w, m)
        rw [Turns.begun, hlast]
        exact List.mem_append_right _ List.mem_cons_self
      · refine ⟨t.begun, [], List.prefix_refl _, ?_, .inl rfl⟩
        rw [hstream, Turns.begun, hlast, List.take_of_length_le (Nat.le_of_not_lt hn)]
        simp
