import Mathlib.Data.List.Basic

/-! First-in first-out queues that make room by dropping their oldest item. A
bound of zero is no bound. -/
namespace RdmaPlatform.Library.BoundedQueue

variable {α : Type}

def full (bound : Nat) (queue : List α) : Bool := 0 < bound && bound ≤ queue.length

def push (bound : Nat) (queue : List α) (item : α) : List α :=
  (if full bound queue then queue.tail else queue) ++ [item]

/-- The item that a push drops. -/
def dropped (bound : Nat) (queue : List α) : Option α := if full bound queue then queue.head? else none

theorem dropped_append_push (bound : Nat) (queue : List α) (item : α) :
    (dropped bound queue).toList ++ push bound queue item = queue ++ [item] := by
  unfold dropped push
  split
  next => cases queue <;> rfl
  next => rfl

theorem push_of_room {bound : Nat} {queue : List α} (room : full bound queue = false) (item : α) :
    push bound queue item = queue ++ [item] := by
  simp [push,room]

theorem mem_push_self (bound : Nat) (queue : List α) (item : α) : item ∈ push bound queue item := by
  simp [push]

theorem dropped_eq_some {bound : Nat} {queue : List α} {item : α}
    (lost : dropped bound queue = some item) :
    full bound queue = true ∧ queue.head? = some item := by
  unfold dropped at lost
  split at lost
  next filled => exact ⟨filled,lost⟩
  next => cases lost

theorem dropped_eq_none_iff {bound : Nat} {queue : List α} :
    dropped bound queue = none ↔ full bound queue = false := by
  unfold dropped
  cases filled : full bound queue with
  | false => simp
  | true =>
    have limits : 0 < bound ∧ bound ≤ queue.length := by simpa [full] using filled
    have present : queue ≠ [] := List.ne_nil_of_length_pos (by omega)
    simp [present]

theorem length_push_le {bound : Nat} {queue : List α} (positive : 0 < bound)
    (fits : queue.length ≤ bound) (item : α) :
    (push bound queue item).length ≤ bound := by
  unfold push
  cases filled : full bound queue with
  | false =>
    have room : queue.length < bound := by simpa [full,positive] using filled
    simpa using Nat.succ_le_of_lt room
  | true =>
    simp only [if_true,List.length_append,List.length_tail,List.length_singleton]
    omega

theorem mem_push_or_dropped {bound : Nat} {queue : List α} {other : α} (member : other ∈ queue)
    (item : α) :
    other ∈ push bound queue item ∨ full bound queue = true ∧ queue.head? = some other := by
  have split : other ∈ (dropped bound queue).toList ++ push bound queue item := by
    rw [dropped_append_push]
    exact List.mem_append_left _ member
  rcases List.mem_append.mp split with lost | kept
  · exact .inr (dropped_eq_some (Option.mem_toList.mp lost))
  · exact .inl kept

theorem head_append_tail (queue : List α) : queue.head?.toList ++ queue.tail = queue := by
  cases queue <;> rfl

end RdmaPlatform.Library.BoundedQueue
