import Mathlib.Data.List.Basic

/-!
# Bounded queues

A queue of a fixed capacity, first in, first out. The bound is part of the type, so a
queue that overflowed cannot be built: sending to a full queue has no result
(`BoundedQueue.Queue.send_eq_none`), and neither has receiving from an empty one
(`BoundedQueue.Queue.receive_eq_none`). What a caller does then – wait, or give up – is
up to the system the queue is part of.
-/

namespace BoundedQueue

variable {α : Type} {n : ℕ}

/-- A queue of at most `n` items, the oldest first. -/
structure Queue (α : Type) (n : ℕ) where
  items : List α
  bounded : items.length ≤ n

/-- A queue without items. -/
def Queue.empty : Queue α n := ⟨[], Nat.zero_le n⟩

/-- Adding an item at the tail, if there is room. -/
def Queue.send (q : Queue α n) (a : α) : Option (Queue α n) :=
  if h : q.items.length < n then
    some ⟨q.items ++ [a], by rw [List.length_append]; exact h⟩
  else none

/-- Taking the item at the head, if there is one. -/
def Queue.receive : Queue α n → Option (α × Queue α n)
  | ⟨[], _⟩ => none
  | ⟨a :: items, h⟩ => some (a, ⟨items, Nat.le_of_succ_le h⟩)

theorem Queue.send_eq_some {q q' : Queue α n} {a : α} (h : q.send a = some q') :
    q'.items = q.items ++ [a] := by
  rw [Queue.send] at h
  split_ifs at h
  obtain rfl := Option.some.inj h
  rfl

theorem Queue.send_eq_none {q : Queue α n} {a : α} (h : q.send a = none) :
    q.items.length = n := by
  rw [Queue.send] at h
  split_ifs at h with hlt
  exact Nat.le_antisymm q.bounded (Nat.le_of_not_lt hlt)

theorem Queue.receive_eq_some {q q' : Queue α n} {a : α} (h : q.receive = some (a, q')) :
    q.items = a :: q'.items := by
  obtain ⟨items, hbounded⟩ := q
  cases items with
  | nil => cases h
  | cons b items =>
    obtain ⟨rfl, rfl⟩ := Prod.mk.inj (Option.some.inj h)
    rfl

theorem Queue.receive_eq_none {q : Queue α n} (h : q.receive = none) : q.items = [] := by
  obtain ⟨items, hbounded⟩ := q
  cases items with
  | nil => rfl
  | cons b items => cases h

end BoundedQueue
