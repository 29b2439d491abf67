import Penflow.Core.PacketQueue
import Penflow.Lib.Run

/-!
# The law of the packet queue

Producers, consumers and a closer call the queue in any order.  What was pushed while the queue was open
has left it at the front, popped or dropped, or is still in it, all in the order of the pushes; and a
closed queue hands out what it holds before it reports that it is closed.
-/

namespace Penflow

/-- A step of a caller.  A pop that has to wait takes one such step for each turn of its loop. -/
inductive QueueCall (α : Type) where
  | push (item : α)
  | popBlocking
  | popTimeout (expired : Bool)
  | close

/-- A queue with what its callers have seen: the pushes it accepted, the packets it dropped, and what
the pops returned. -/
structure QueueTrace (α : Type) where
  queue : PacketQueue α
  accepted : List α
  dropped : List α
  returned : List (Option α)

namespace QueueTrace

variable {α : Type}

def new (capacity : ℕ) : QueueTrace α := ⟨.new capacity, [], [], []⟩

/-- A turn of a pop: it returns, with or without a packet, or waits on. -/
def pop (t : QueueTrace α) : Option (Option α) → QueueTrace α
  | none => t
  | some none => { t with returned := t.returned ++ [none] }
  | some (some item) =>
    { t with queue := t.queue.popFront, returned := t.returned ++ [some item] }

def step (t : QueueTrace α) : QueueCall α → QueueTrace α
  | .push item =>
    { t with
      queue := t.queue.push item
      accepted := if t.queue.closed then t.accepted else t.accepted ++ [item]
      dropped := t.dropped ++ t.queue.evicted.toList }
  | .popBlocking => t.pop t.queue.popBlocking
  | .popTimeout expired => t.pop (t.queue.popTimeout expired)
  | .close => { t with queue := t.queue.close }

/-- The packets the pops returned. -/
def popped (t : QueueTrace α) : List α := t.returned.filterMap id

/-- **The law.**  The accepted packets, in the order of their pushes, are those that have left, each
either popped or dropped, and then those in the queue. -/
structure Law (capacity : ℕ) (t : QueueTrace α) : Prop where
  capacity_eq : t.queue.capacity = max capacity 1
  conserved : ∃ departed : List (α × Bool), t.accepted = departed.map Prod.fst ++ t.queue.deque ∧
    t.popped = (departed.filter Prod.snd).map Prod.fst ∧
    t.dropped = (departed.filter fun d => !d.2).map Prod.fst
  counted : t.queue.dropped_overflow = min t.dropped.length (2 ^ 64 - 1)

theorem Law.new (capacity : ℕ) : Law capacity (new capacity : QueueTrace α) :=
  ⟨rfl, ⟨[], rfl, rfl, rfl⟩, rfl⟩

theorem push_of_closed {t : QueueTrace α} (h : t.queue.closed = true) (item : α) :
    t.step (.push item) = t := by
  have hnone : t.queue.evicted = none := if_pos h
  rw [step, PacketQueue.push_of_closed h, if_pos h, hnone, Option.toList_none, List.append_nil]

theorem Law.push {capacity : ℕ} {t : QueueTrace α} (h : Law capacity t) (item : α) :
    Law capacity (t.step (.push item)) := by
  obtain ⟨departed, haccepted, hpopped, hdropped⟩ := h.conserved
  cases hclosed : t.queue.closed with
  | true =>
      rw [push_of_closed hclosed]
      exact h
  | false =>
      have hdeque := PacketQueue.push_deque hclosed item
      have hevicted : ∀ o : Option α, ∃ left : List (α × Bool), left.map Prod.fst = o.toList ∧
          left.filter Prod.snd = [] ∧ (left.filter fun d => !d.2) = left := by
        intro o
        refine ⟨o.toList.map (·, false), ?_⟩
        cases o <;> exact ⟨rfl, rfl, rfl⟩
      obtain ⟨left, hleft, hpop, hdrop⟩ := hevicted t.queue.evicted
      refine ⟨(t.queue.push_capacity item).trans h.capacity_eq, ⟨departed ++ left, ?_, ?_, ?_⟩, ?_⟩
      · show (if t.queue.closed then _ else _) = _
        rw [if_neg (by rw [hclosed]; exact Bool.false_ne_true), haccepted, List.map_append, hleft,
          List.append_assoc, List.append_assoc, ← hdeque]
        rfl
      · rw [List.filter_append, hpop, List.append_nil]
        exact hpopped
      · show t.dropped ++ _ = _
        rw [List.filter_append, hdrop, List.map_append, hleft, hdropped]
      · show (t.queue.push item).dropped_overflow = min (t.dropped ++ _).length _
        rw [PacketQueue.push_dropped_overflow, h.counted, List.length_append]
        cases t.queue.evicted with
        | none => rfl
        | some oldest =>
            simp only [Option.isSome_some, if_true, Option.toList_some, List.length_singleton]
            omega

theorem Law.pop {capacity : ℕ} {t : QueueTrace α} (h : Law capacity t) (expired : Bool) :
    Law capacity (t.pop (t.queue.popTimeout expired)) := by
  obtain ⟨departed, haccepted, hpopped, hdropped⟩ := h.conserved
  cases hpop : t.queue.popTimeout expired with
  | none => exact h
  | some result =>
      cases result with
      | none =>
          refine ⟨h.capacity_eq, ⟨departed, haccepted, ?_, hdropped⟩, h.counted⟩
          rw [← hpopped]
          show (t.returned ++ [none]).filterMap id = _
          rw [List.filterMap_append]
          exact List.append_nil _
      | some item =>
          have hdeque := PacketQueue.popTimeout_eq_some hpop
          refine ⟨h.capacity_eq, ⟨departed ++ [(item, true)], ?_, ?_, ?_⟩, h.counted⟩
          · show t.accepted = _
            rw [haccepted, hdeque, List.map_append, List.append_assoc]
            rfl
          · show (t.returned ++ [some item]).filterMap id = _
            rw [List.filterMap_append, List.filter_append, List.map_append, ← hpopped]
            rfl
          · rw [List.filter_append, List.map_append, ← hdropped]
            exact (List.append_nil _).symm

theorem Law.step {capacity : ℕ} {t : QueueTrace α} (h : Law capacity t) (c : QueueCall α) :
    Law capacity (t.step c) := by
  cases c with
  | push item => exact h.push item
  | popBlocking =>
      rw [QueueTrace.step, PacketQueue.popBlocking_eq]
      exact h.pop false
  | popTimeout expired => exact h.pop expired
  | close => exact ⟨h.capacity_eq, h.conserved, h.counted⟩

theorem law (capacity : ℕ) (calls : List (QueueCall α)) :
    Law capacity (calls.foldl step (new capacity)) :=
  Run.invariant (fun _ c h => h.step c) calls (Law.new capacity)

/-! ### A closed queue -/

/-- A step of a pop. -/
def isPop : QueueCall α → Bool
  | .push _ => false
  | .popBlocking => true
  | .popTimeout _ => true
  | .close => false

/-- A pop of a closed queue returns: its first packet, or that it is closed. -/
theorem pop_of_closed {t : QueueTrace α} (h : t.queue.closed = true) (expired : Bool) :
    t.pop (t.queue.popTimeout expired) =
      { t with queue := t.queue.popFront, returned := t.returned ++ [t.queue.deque.head?] } := by
  rw [PacketQueue.popTimeout, h, Bool.true_or]
  cases hdeque : t.queue.deque with
  | nil =>
      rw [PacketQueue.popFront_of_nil hdeque]
      rfl
  | cons item rest => rfl

theorem pop_closed (t : QueueTrace α) (r : Option (Option α)) : (t.pop r).queue.closed = t.queue.closed := by
  cases r with
  | none => rfl
  | some result =>
      cases result with
      | none => rfl
      | some item => rfl

/-- Only `close` closes the queue, and nothing opens it again. -/
theorem step_closed (t : QueueTrace α) (c : QueueCall α) :
    (t.step c).queue.closed = true ↔ t.queue.closed = true ∨ c = .close := by
  cases c with
  | push item =>
      show (t.queue.push item).closed = true ↔ _
      rw [PacketQueue.push_closed]
      simp
  | popBlocking =>
      rw [step, pop_closed]
      simp
  | popTimeout expired =>
      rw [step, pop_closed]
      simp
  | close => exact iff_of_true (PacketQueue.close_closed _) (.inr rfl)

theorem closed_of_run (t : QueueTrace α) (calls : List (QueueCall α)) :
    (calls.foldl step t).queue.closed = true ↔ t.queue.closed = true ∨ .close ∈ calls := by
  induction calls generalizing t with
  | nil => simp
  | cons c calls ih =>
      rw [List.foldl_cons, ih, step_closed, List.mem_cons, or_assoc]
      simp only [eq_comm]

/-- What `n` pops of a closed queue return: its packets, and then that it is closed. -/
def drained (deque : List α) (n : ℕ) : List (Option α) :=
  (deque.map some).take n ++ List.replicate (n - deque.length) none

theorem drained_succ (deque : List α) (n : ℕ) :
    drained deque (n + 1) = deque.head? :: drained deque.tail n := by
  cases deque with
  | nil => rw [drained, drained]; simp [List.replicate_succ]
  | cons item rest => simp [drained]

theorem returned_of_closed {t : QueueTrace α} (h : t.queue.closed = true)
    (calls : List (QueueCall α)) :
    (calls.foldl step t).returned = t.returned ++ drained t.queue.deque (calls.countP isPop) := by
  induction calls generalizing t with
  | nil => simp [drained]
  | cons c calls ih =>
      have hpop : ∀ expired, ((calls.foldl step (t.pop (t.queue.popTimeout expired))).returned =
          t.returned ++ drained t.queue.deque (calls.countP isPop + 1)) := by
        intro expired
        rw [pop_of_closed h, ih (by exact h), drained_succ, List.append_assoc]
        rfl
      rw [List.foldl_cons]
      cases c with
      | push item => rw [push_of_closed h, List.countP_cons_of_neg Bool.false_ne_true, ih h]
      | popBlocking =>
          rw [step, PacketQueue.popBlocking_eq, List.countP_cons_of_pos rfl]
          exact hpop false
      | popTimeout expired =>
          rw [List.countP_cons_of_pos rfl]
          exact hpop expired
      | close =>
          rw [List.countP_cons_of_neg Bool.false_ne_true, ih (by rfl)]
          rfl

/-- **The law of the packet queue.**  The queue is closed just when one of the calls was `close`. -/
theorem queue_law (capacity : ℕ) (calls : List (QueueCall α)) :
    let t := calls.foldl step (new capacity)
    t.queue.deque.length ≤ max capacity 1 ∧
      t.popped.Sublist t.accepted ∧
      t.queue.deque <:+ t.accepted ∧
      (t.queue.dropped_overflow < 2 ^ 64 - 1 →
        t.accepted.length = t.popped.length + t.queue.dropped_overflow + t.queue.deque.length) ∧
      (t.queue.closed = true ↔ .close ∈ calls) ∧
      (.close ∈ calls → (∀ item, t.step (.push item) = t) ∧
        ∀ later : List (QueueCall α), (later.foldl step t).returned =
          t.returned ++ drained t.queue.deque (later.countP isPop)) := by
  intro t
  obtain ⟨hcapacity, ⟨departed, haccepted, hpopped, hdropped⟩, hcounted⟩ : Law capacity t := law capacity calls
  have hclosed : t.queue.closed = true ↔ .close ∈ calls :=
    (closed_of_run (new capacity) calls).trans (or_iff_right Bool.false_ne_true)
  refine ⟨?_, ?_, ?_, fun hbelow => ?_, hclosed, fun h => ?_⟩
  · rw [← hcapacity]
    exact t.queue.length_le
  · rw [haccepted, hpopped]
    exact (List.filter_sublist.map _).trans (List.sublist_append_left _ _)
  · rw [haccepted]
    exact List.suffix_append _ _
  · have hsplit := List.length_eq_length_filter_add (l := departed) Prod.snd
    have hdrops : t.dropped.length = (departed.filter fun d => !d.2).length := by
      rw [hdropped, List.length_map]
    rw [haccepted, hpopped, List.length_append, List.length_map, List.length_map]
    omega
  · exact ⟨push_of_closed (hclosed.2 h), returned_of_closed (hclosed.2 h)⟩

/-- Three pushes into a queue of two, then `close`: the later push changes nothing, and the two packets left come out
before a pop reports that the queue is closed. -/
theorem queue_law_closed :
    let t : QueueTrace ℕ := [.push 1, .push 2, .push 3, .close].foldl step (new 2)
    t.queue.closed = true ∧ t.step (.push 4) = t ∧
      ([.popBlocking, .popTimeout false, .popBlocking].foldl step t).returned = [some 2, some 3, none] := by
  intro t
  obtain ⟨-, -, -, -, hclosed, hafter⟩ := queue_law 2 [.push 1, .push 2, .push 3, QueueCall.close]
  have hmem : QueueCall.close ∈ [.push 1, .push 2, .push 3, QueueCall.close] := by simp
  obtain ⟨hpush, hdrained⟩ := hafter hmem
  exact ⟨hclosed.2 hmem, hpush 4, hdrained [.popBlocking, .popTimeout false, .popBlocking]⟩

end QueueTrace

end Penflow
