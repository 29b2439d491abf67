import Mathlib.Data.List.Basic
import Mathlib.Data.List.Perm.Basic

/-!
# What is lent must be given back

A client opens and closes things, and one of the open things at a time is lent to it: it may use what it has on
loan, and has to give it back before the next loan and before the thing is closed.  `Lawful σ es σ'` says that the
events `es` keep to this.  A lawful history that ends with nothing on loan has given back each loan once, in
the order of the loans (`Lawful.loans_eq`), and one that ends with nothing open has closed each thing once
(`Lawful.opens_perm`).
-/

namespace Custody

variable {ρ : Type*}

inductive Event (ρ : Type*) where
  | opens (r : ρ)
  | lends (r : ρ)
  | uses (r : ρ)
  | returns (r : ρ)
  | closes (r : ρ)
  deriving DecidableEq

structure State (ρ : Type*) where
  opened : List ρ
  lent : Option ρ

/-- Nothing is open. -/
def State.empty : State ρ := ⟨[], none⟩

section Lawful

variable [DecidableEq ρ]

/-- The state behind an event, if the event is allowed. -/
def step (σ : State ρ) : Event ρ → Option (State ρ)
  | .opens r => if r ∈ σ.opened then none else some { σ with opened := r :: σ.opened }
  | .lends r => if r ∈ σ.opened ∧ σ.lent = none then some { σ with lent := some r } else none
  | .uses r => if σ.lent = some r then some σ else none
  | .returns r => if σ.lent = some r then some { σ with lent := none } else none
  | .closes r =>
    if r ∈ σ.opened ∧ σ.lent ≠ some r then some { σ with opened := σ.opened.erase r } else none

/-- The events are allowed one after the other, and lead from `σ` to `σ'`. -/
def Lawful (σ : State ρ) (es : List (Event ρ)) (σ' : State ρ) : Prop := es.foldlM step σ = some σ'

variable {σ σ' σ'' : State ρ} {es es' : List (Event ρ)} {r : ρ}

/-- What an allowed event does. -/
theorem step_cases {e : Event ρ} (h : step σ e = some σ') :
    (∃ r, e = .opens r ∧ r ∉ σ.opened ∧ σ' = { σ with opened := r :: σ.opened }) ∨
      (∃ r, e = .lends r ∧ r ∈ σ.opened ∧ σ.lent = none ∧ σ' = { σ with lent := some r }) ∨
      (∃ r, e = .uses r ∧ σ.lent = some r ∧ σ' = σ) ∨
      (∃ r, e = .returns r ∧ σ.lent = some r ∧ σ' = { σ with lent := none }) ∨
      ∃ r, e = .closes r ∧ r ∈ σ.opened ∧ σ.lent ≠ some r ∧ σ' = { σ with opened := σ.opened.erase r } := by
  cases e with
  | opens r =>
      rw [step, Option.ite_none_left_eq_some] at h
      exact .inl ⟨r, rfl, h.1, (Option.some.inj h.2).symm⟩
  | lends r =>
      rw [step, Option.ite_none_right_eq_some] at h
      exact .inr (.inl ⟨r, rfl, h.1.1, h.1.2, (Option.some.inj h.2).symm⟩)
  | uses r =>
      rw [step, Option.ite_none_right_eq_some] at h
      exact .inr (.inr (.inl ⟨r, rfl, h.1, (Option.some.inj h.2).symm⟩))
  | returns r =>
      rw [step, Option.ite_none_right_eq_some] at h
      exact .inr (.inr (.inr (.inl ⟨r, rfl, h.1, (Option.some.inj h.2).symm⟩)))
  | closes r =>
      rw [step, Option.ite_none_right_eq_some] at h
      exact .inr (.inr (.inr (.inr ⟨r, rfl, h.1.1, h.1.2, (Option.some.inj h.2).symm⟩)))

theorem Lawful.nil (σ : State ρ) : Lawful σ [] σ := rfl

theorem lawful_nil : Lawful σ [] σ' ↔ σ = σ' := Option.some_inj

theorem lawful_cons {e : Event ρ} : Lawful σ (e :: es) σ' ↔ ∃ τ, step σ e = some τ ∧ Lawful τ es σ' := by
  rw [Lawful, List.foldlM_cons]
  exact Option.bind_eq_some_iff

theorem Lawful.append (h : Lawful σ es σ') (h' : Lawful σ' es' σ'') : Lawful σ (es ++ es') σ'' := by
  rw [Lawful, List.foldlM_append, show es.foldlM step σ = some σ' from h]
  exact h'

theorem Lawful.opens (h : Lawful σ es σ') (hr : r ∉ σ'.opened) :
    Lawful σ (es ++ [.opens r]) { σ' with opened := r :: σ'.opened } :=
  h.append (lawful_cons.2 ⟨_, if_neg hr, Lawful.nil _⟩)

theorem Lawful.lends (h : Lawful σ es σ') (hr : r ∈ σ'.opened) (hlent : σ'.lent = none) :
    Lawful σ (es ++ [.lends r]) { σ' with lent := some r } :=
  h.append (lawful_cons.2 ⟨_, if_pos ⟨hr, hlent⟩, Lawful.nil _⟩)

theorem Lawful.uses (h : Lawful σ es σ') (hlent : σ'.lent = some r) : Lawful σ (es ++ [.uses r]) σ' :=
  h.append (lawful_cons.2 ⟨_, if_pos hlent, Lawful.nil _⟩)

theorem Lawful.returns (h : Lawful σ es σ') (hlent : σ'.lent = some r) :
    Lawful σ (es ++ [.returns r]) { σ' with lent := none } :=
  h.append (lawful_cons.2 ⟨_, if_pos hlent, Lawful.nil _⟩)

theorem Lawful.closes (h : Lawful σ es σ') (hr : r ∈ σ'.opened) (hlent : σ'.lent ≠ some r) :
    Lawful σ (es ++ [.closes r]) { σ' with opened := σ'.opened.erase r } :=
  h.append (lawful_cons.2 ⟨_, if_pos ⟨hr, hlent⟩, Lawful.nil _⟩)

end Lawful

/-! ### The history of the loans -/

def Event.loan? : Event ρ → Option ρ
  | .lends r => some r
  | _ => none

def Event.return? : Event ρ → Option ρ
  | .returns r => some r
  | _ => none

def Event.open? : Event ρ → Option ρ
  | .opens r => some r
  | _ => none

def Event.close? : Event ρ → Option ρ
  | .closes r => some r
  | _ => none

/-- What is lent, in order. -/
def loans (es : List (Event ρ)) : List ρ := es.filterMap Event.loan?

/-- What is given back, in order. -/
def returned (es : List (Event ρ)) : List ρ := es.filterMap Event.return?

def openings (es : List (Event ρ)) : List ρ := es.filterMap Event.open?

def closings (es : List (Event ρ)) : List ρ := es.filterMap Event.close?

variable [DecidableEq ρ] {σ σ' : State ρ} {es : List (Event ρ)}

/-- **Each loan is given back.**  What was on loan and what is lent since is given back in this order, but for
what is on loan at the end. -/
theorem Lawful.loans_eq (h : Lawful σ es σ') :
    σ.lent.toList ++ loans es = returned es ++ σ'.lent.toList := by
  induction es generalizing σ with
  | nil =>
      obtain rfl := lawful_nil.1 h
      exact List.append_nil _
  | cons e es ih =>
      obtain ⟨τ, hstep, hrest⟩ := lawful_cons.1 h
      have hloans := ih hrest
      rcases step_cases hstep with ⟨r, rfl, -, rfl⟩ | ⟨r, rfl, -, hlent, rfl⟩ | ⟨r, rfl, -, rfl⟩ |
        ⟨r, rfl, hlent, rfl⟩ | ⟨r, rfl, -, -, rfl⟩
      · exact hloans
      · rw [hlent]
        exact hloans
      · exact hloans
      · rw [hlent]
        exact congrArg (r :: ·) hloans
      · exact hloans

/-- **Each thing that is opened is closed**, but for what is open at the end. -/
theorem Lawful.opens_perm (h : Lawful σ es σ') : (openings es ++ σ.opened).Perm (closings es ++ σ'.opened) := by
  induction es generalizing σ with
  | nil =>
      obtain rfl := lawful_nil.1 h
      exact List.Perm.refl _
  | cons e es ih =>
      obtain ⟨τ, hstep, hrest⟩ := lawful_cons.1 h
      have hperm := ih hrest
      rcases step_cases hstep with ⟨r, rfl, -, rfl⟩ | ⟨r, rfl, -, -, rfl⟩ | ⟨r, rfl, -, rfl⟩ |
        ⟨r, rfl, -, rfl⟩ | ⟨r, rfl, hopen, -, rfl⟩
      · have hfront : (openings es ++ r :: σ.opened).Perm (r :: (openings es ++ σ.opened)) := List.perm_middle
        exact hfront.symm.trans hperm
      · exact hperm
      · exact hperm
      · exact hperm
      · have hfirst : (openings es ++ σ.opened).Perm (r :: (openings es ++ σ.opened.erase r)) :=
          ((List.perm_cons_erase hopen).append_left (openings es)).trans List.perm_middle
        exact hfirst.trans (hperm.cons r)

end Custody
