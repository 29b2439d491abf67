import Mathlib.Algebra.Ring.Nat
import Mathlib.Tactic.Common

/-!
# The packet queue

The encoder pushes, the session pops.  A push into a full queue drops the oldest packet and counts it;
a push into a closed one does nothing.  Every operation holds the lock, so it is one step; a pop that
waits on the condition variable is one step for each turn of its loop.
-/

namespace Penflow

/-- What the lock guards. -/
structure PacketQueue (α : Type) where
  deque : List α
  capacity : ℕ
  closed : Bool
  /-- `u64`, saturating -/
  dropped_overflow : ℕ
  capacity_pos : 0 < capacity
  length_le : deque.length ≤ capacity
  deriving DecidableEq, Repr

namespace PacketQueue

variable {α : Type}

def new (capacity : ℕ) : PacketQueue α where
  deque := []
  capacity := max capacity 1
  closed := false
  dropped_overflow := 0
  capacity_pos := by omega
  length_le := Nat.zero_le _

/-- The packet that a push drops. -/
def evicted (q : PacketQueue α) : Option α :=
  if q.closed then none
  else if q.deque.length = q.capacity then q.deque.head?
  else none

/-- The count it returns is `dropped_overflow` behind the push. -/
def push (q : PacketQueue α) (item : α) : PacketQueue α :=
  if q.closed then q
  else if h : q.deque.length = q.capacity then
    { q with
      deque := q.deque.tail ++ [item]
      dropped_overflow := min (q.dropped_overflow + 1) (2 ^ 64 - 1)
      length_le := by
        have := q.capacity_pos
        simp only [List.length_append, List.length_tail, List.length_singleton]
        omega }
  else
    { q with
      deque := q.deque ++ [item]
      length_le := by
        have := q.length_le
        simp only [List.length_append, List.length_singleton]
        omega }

/-- `pop_front` -/
def popFront (q : PacketQueue α) : PacketQueue α where
  deque := q.deque.tail
  capacity := q.capacity
  closed := q.closed
  dropped_overflow := q.dropped_overflow
  capacity_pos := q.capacity_pos
  length_le := by
    have := q.length_le
    rw [List.length_tail]
    omega

/-- One turn of the loop of `pop_timeout`: what it returns, or nothing where it goes on waiting. -/
def popTimeout (q : PacketQueue α) (expired : Bool) : Option (Option α) :=
  match q.deque with
  | item :: _ => some (some item)
  | [] => if q.closed || expired then some none else none

/-- One turn of the loop of `pop_blocking`. -/
def popBlocking (q : PacketQueue α) : Option (Option α) :=
  match q.deque with
  | item :: _ => some (some item)
  | [] => if q.closed then some none else none

/-- Wakes all consumers; a woken one takes its next turn. -/
def close (q : PacketQueue α) : PacketQueue α := { q with closed := true }

/-! ### What the operations do -/

theorem popFront_of_nil {q : PacketQueue α} (h : q.deque = []) : q.popFront = q := by
  obtain ⟨deque, capacity, closed, dropped, hpos, hlen⟩ := q
  cases h
  rfl

@[simp]
theorem close_closed (q : PacketQueue α) : q.close.closed = true := rfl

@[simp]
theorem push_closed (q : PacketQueue α) (item : α) : (q.push item).closed = q.closed := by
  rw [push]
  split
  · rfl
  · split <;> rfl

theorem push_of_closed {q : PacketQueue α} (h : q.closed = true) (item : α) : q.push item = q :=
  if_pos h

/-- **What a push keeps.**  The dropped packet, if any, and the queue behind the push are the queue
before it with the packet at its end. -/
theorem push_deque {q : PacketQueue α} (h : q.closed = false) (item : α) :
    q.evicted.toList ++ (q.push item).deque = q.deque ++ [item] := by
  have hopen : ¬ q.closed = true := by
    rw [h]
    exact Bool.false_ne_true
  rw [evicted, push, if_neg hopen, if_neg hopen]
  split
  case isTrue hfull =>
    show q.deque.head?.toList ++ (q.deque.tail ++ [item]) = q.deque ++ [item]
    cases hdeque : q.deque with
    | nil =>
        have := q.capacity_pos
        rw [hdeque, List.length_nil] at hfull
        omega
    | cons oldest rest => rfl
  case isFalse hroom => rfl

theorem push_capacity (q : PacketQueue α) (item : α) : (q.push item).capacity = q.capacity := by
  rw [push]
  split
  · rfl
  · split <;> rfl

/-- The counter counts the dropped packet. -/
theorem push_dropped_overflow (q : PacketQueue α) (item : α) :
    (q.push item).dropped_overflow =
      if q.evicted.isSome then min (q.dropped_overflow + 1) (2 ^ 64 - 1) else q.dropped_overflow := by
  rw [evicted, push]
  split
  · rfl
  · split
    case isTrue hfull =>
      show min (q.dropped_overflow + 1) (2 ^ 64 - 1) = _
      cases hdeque : q.deque with
      | nil =>
          have := q.capacity_pos
          rw [hdeque, List.length_nil] at hfull
          omega
      | cons oldest rest => rfl
    case isFalse hroom => rfl

/-- The blocking pop is the one whose deadline never passes. -/
theorem popBlocking_eq (q : PacketQueue α) : q.popBlocking = q.popTimeout false := by
  rw [popBlocking, popTimeout, Bool.or_false]

theorem popTimeout_eq_some {q : PacketQueue α} {expired : Bool} {item : α}
    (h : q.popTimeout expired = some (some item)) : q.deque = item :: q.popFront.deque := by
  rw [popTimeout] at h
  show _ = item :: q.deque.tail
  cases hdeque : q.deque with
  | nil =>
      simp only [hdeque] at h
      split at h <;> cases h
  | cons first rest =>
      simp only [hdeque] at h
      cases h
      rfl

end PacketQueue

end Penflow
