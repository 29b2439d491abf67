import Penflow.Lib.LastSome

/-!
# Contacts

A list of events tells of many contacts: each event names its contact, and says that it goes down, that it
moves, or that it goes up.  `Lawful` says that every contact lives stroke by stroke, and that it goes up in
relation `R` to the event it had before.

A batch of events, at most one for each contact, keeps this when each of them follows from the events
before the batch; the batch is one frame with many fingers in it.
-/

namespace Contacts

inductive Act where
  | down
  | update
  | up
  deriving DecidableEq, Repr

/-! ### The word of a contact -/

/-- A contact that goes down, is updated `n` times, and has not gone up. -/
def stroke (n : ℕ) : List Act := .down :: List.replicate n .update

/-- **(DOWN UPDATE* UP)***, and at the end a stroke without its UP where the contact is down. -/
def Lifecycle (down : Bool) (w : List Act) : Prop :=
  ∃ (whole : List ℕ) (last : Option ℕ), last.isSome = down ∧
    w = (whole.flatMap fun n => stroke n ++ [.up]) ++ last.elim [] stroke

theorem Lifecycle.nil : Lifecycle false [] := ⟨[], none, rfl, rfl⟩

theorem Lifecycle.down {w : List Act} (h : Lifecycle false w) : Lifecycle true (w ++ [.down]) := by
  obtain ⟨whole, last, hlast, rfl⟩ := h
  obtain rfl : last = none := by
    cases last with
    | none => rfl
    | some n => cases hlast
  refine ⟨whole, some 0, rfl, ?_⟩
  show (_ ++ []) ++ _ = _
  rw [List.append_nil]
  rfl

theorem Lifecycle.update {w : List Act} (h : Lifecycle true w) : Lifecycle true (w ++ [.update]) := by
  obtain ⟨whole, last, hlast, rfl⟩ := h
  obtain ⟨n, rfl⟩ := Option.isSome_iff_exists.1 hlast
  refine ⟨whole, some (n + 1), rfl, ?_⟩
  show (_ ++ stroke n) ++ _ = _ ++ stroke (n + 1)
  rw [List.append_assoc, stroke, stroke, List.replicate_succ']
  rfl

theorem Lifecycle.up {w : List Act} (h : Lifecycle true w) : Lifecycle false (w ++ [.up]) := by
  obtain ⟨whole, last, hlast, rfl⟩ := h
  obtain ⟨n, rfl⟩ := Option.isSome_iff_exists.1 hlast
  refine ⟨whole ++ [n], none, rfl, ?_⟩
  show (_ ++ stroke n) ++ _ = _ ++ []
  rw [List.append_nil, List.flatMap_append, List.flatMap_singleton, List.append_assoc]

/-! ### The events -/

section Events

variable {ε ι : Type*} [DecidableEq ι] (who : ε → ι) (act : ε → Act)

/-- What the events say of a contact. -/
def word (i : ι) (es : List ε) : List Act := (es.filter fun e => who e = i).map act

/-- The last event of a contact. -/
def last (i : ι) (es : List ε) : Option ε := es.lastSome fun e => if who e = i then some e else none

/-- A contact is down unless its last event is that it goes up. -/
def isDown (i : ι) (es : List ε) : Bool :=
  match last who i es with
  | none => false
  | some e => act e != .up

/-- The event follows from the ones before it: down where the contact is up, and an update or up where it
is down, with an up in relation `R` to the contact's last event. -/
def Follows (R : ε → ε → Prop) (es : List ε) (e : ε) : Prop :=
  match act e with
  | .down => isDown who act (who e) es = false
  | .update => isDown who act (who e) es = true
  | .up => ∃ e', last who (who e) es = some e' ∧ act e' ≠ .up ∧ R e' e

/-- Every contact lives stroke by stroke and goes up in relation `R` to its last event. -/
structure Lawful (R : ε → ε → Prop) (es : List ε) : Prop where
  lifecycle : ∀ i, Lifecycle (isDown who act i es) (word who act i es)
  up_last : ∀ pre e post, es = pre ++ e :: post → act e = .up →
    ∃ e', last who (who e) pre = some e' ∧ R e' e

variable {who act} {R : ε → ε → Prop} {es : List ε} {i : ι} {e : ε}

theorem last_concat : last who (who e) (es ++ [e]) = some e := by
  rw [last, List.lastSome_append, List.lastSome_cons]
  simp

theorem last_append_of_notMem {more : List ε} (h : ∀ e ∈ more, who e ≠ i) :
    last who i (es ++ more) = last who i es := by
  have hnone : more.lastSome (fun e => if who e = i then some e else none) = none :=
    List.lastSome_eq_none.2 fun e he => if_neg (h e he)
  rw [last, List.lastSome_append, hnone]
  rfl

/-- A batch with one event of the contact. -/
theorem last_append_of_mem {more : List ε} (hnodup : (more.map who).Nodup) (he : e ∈ more) :
    last who (who e) (es ++ more) = some e := by
  obtain ⟨pre, post, rfl⟩ := List.append_of_mem he
  rw [List.map_append, List.map_cons] at hnodup
  have hpost : ∀ x ∈ post, who x ≠ who e := by
    intro x hx hwho
    have hcons := (List.nodup_append.1 hnodup).2.1
    exact (List.nodup_cons.1 hcons).1 (hwho ▸ List.mem_map_of_mem hx)
  have hsplit : es ++ (pre ++ e :: post) = (es ++ pre ++ [e]) ++ post := by simp
  rw [hsplit, last_append_of_notMem hpost, last_concat]

theorem isDown_iff : isDown who act i es = true ↔ ∃ e, last who i es = some e ∧ act e ≠ .up := by
  rw [isDown]
  cases last who i es <;> simp

theorem word_append (es more : List ε) : word who act i (es ++ more) = word who act i es ++ word who act i more := by
  rw [word, List.filter_append, List.map_append]
  rfl

/-! ### Batches -/

theorem Lawful.nil : Lawful who act R [] where
  lifecycle _ := .nil
  up_last pre e post h := by simp at h

/-- **One event more.** -/
theorem Lawful.concat (h : Lawful who act R es) (he : Follows who act R es e) :
    Lawful who act R (es ++ [e]) := by
  constructor
  · intro i
    have hlife := h.lifecycle i
    by_cases hi : who e = i
    · have hword : word who act i [e] = [act e] := by simp [word, hi]
      have hdown : isDown who act i (es ++ [e]) = (act e != .up) := by
        rw [isDown, ← hi, last_concat]
      rw [word_append, hword, hdown]
      rw [Follows, hi] at he
      cases hact : act e with
      | down =>
          rw [hact] at he
          rw [he] at hlife
          exact hlife.down
      | update =>
          rw [hact] at he
          rw [he] at hlife
          exact hlife.update
      | up =>
          rw [hact] at he
          obtain ⟨e', hlast, hact', -⟩ := he
          rw [isDown_iff.2 ⟨e', hlast, hact'⟩] at hlife
          exact hlife.up
    · have hword : word who act i [e] = [] := by simp [word, hi]
      have hdown : isDown who act i (es ++ [e]) = isDown who act i es := by
        rw [isDown, last_append_of_notMem fun x hx => List.mem_singleton.1 hx ▸ hi]
        rfl
      rw [word_append, hword, hdown, List.append_nil]
      exact hlife
  · intro pre x post hsplit hx
    rcases List.eq_nil_or_concat post with rfl | ⟨post, y, rfl⟩
    · obtain ⟨rfl, hxe⟩ := List.append_inj' hsplit rfl
      obtain rfl : e = x := (List.cons.inj hxe).1
      rw [Follows, hx] at he
      obtain ⟨e', hlast, -, hR⟩ := he
      exact ⟨e', hlast, hR⟩
    · rw [List.concat_eq_append, ← List.cons_append, ← List.append_assoc] at hsplit
      exact h.up_last pre x post (List.append_inj' hsplit rfl).1 hx

/-- What follows does so behind events of other contacts. -/
theorem Follows.concat {x : ε} (h : Follows who act R es e) (hne : who x ≠ who e) :
    Follows who act R (es ++ [x]) e := by
  have hlast : last who (who e) (es ++ [x]) = last who (who e) es :=
    last_append_of_notMem fun y hy => List.mem_singleton.1 hy ▸ hne
  have hdown : isDown who act (who e) (es ++ [x]) = isDown who act (who e) es := by
    rw [isDown, hlast]
    rfl
  rw [Follows] at h ⊢
  rw [hlast, hdown]
  exact h

/-- **A batch more.** -/
theorem Lawful.append {batch : List ε} (h : Lawful who act R es) (hnodup : (batch.map who).Nodup)
    (hbatch : ∀ e ∈ batch, Follows who act R es e) : Lawful who act R (es ++ batch) := by
  induction batch generalizing es with
  | nil =>
      rw [List.append_nil]
      exact h
  | cons x batch ih =>
      have hsplit : es ++ x :: batch = (es ++ [x]) ++ batch := by simp
      rw [List.map_cons] at hnodup
      obtain ⟨hx, hnodup⟩ := List.nodup_cons.1 hnodup
      rw [hsplit]
      refine ih (h.concat (hbatch x List.mem_cons_self)) hnodup fun e he => ?_
      have hne : who x ≠ who e := fun hwho => hx (hwho ▸ List.mem_map_of_mem he)
      exact (hbatch e (List.mem_cons_of_mem x he)).concat hne

end Events

end Contacts
