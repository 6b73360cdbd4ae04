import Mathlib.Data.List.Basic
import Mathlib.Data.List.Nodup

/-!
# Bounded FIFO queues

A ring of fixed capacity, by its contents.  The capacity bound is a field, so an
overfull ring cannot be built: `enqueue` either keeps the bound or answers `none`.
-/

universe u

/-- A first-in first-out queue that never holds more than `capacity` elements. -/
structure BoundedFifo (α : Type u) where
  /-- How many elements fit. -/
  capacity : ℕ
  /-- The contents, oldest first. -/
  items : List α
  /-- The queue is never overfull. -/
  length_le : items.length ≤ capacity

namespace BoundedFifo

variable {α : Type u} {q q' : BoundedFifo α} {a : α}

/-- The empty queue of a given capacity. -/
def empty (capacity : ℕ) : BoundedFifo α := ⟨capacity, [], Nat.zero_le _⟩

@[simp] theorem empty_items (capacity : ℕ) :
    (empty capacity : BoundedFifo α).items = [] := rfl

@[simp] theorem empty_capacity (capacity : ℕ) :
    (empty capacity : BoundedFifo α).capacity = capacity := rfl

/-- Append at the tail; `none` when the queue is full. -/
def enqueue (q : BoundedFifo α) (a : α) : Option (BoundedFifo α) :=
  if h : q.items.length < q.capacity then
    some ⟨q.capacity, q.items ++ [a], by rw [List.length_append]; exact h⟩
  else none

/-- Take the oldest element; `none` when the queue is empty. -/
def dequeue (q : BoundedFifo α) : Option (α × BoundedFifo α) :=
  match hq : q.items with
  | [] => none
  | a :: rest =>
      some (a, ⟨q.capacity, rest, by have := q.length_le; rw [hq] at this; simp at this; omega⟩)

/-- Take up to `n` of the oldest elements. -/
def dequeueBurst (q : BoundedFifo α) (n : ℕ) : List α × BoundedFifo α :=
  (q.items.take n, ⟨q.capacity, q.items.drop n, by
    have := q.length_le; rw [List.length_drop]; omega⟩)

@[ext] theorem ext (hc : q.capacity = q'.capacity) (hi : q.items = q'.items) : q = q' := by
  cases q; cases q'; simp_all

theorem items_of_enqueue (h : q.enqueue a = some q') : q'.items = q.items ++ [a] := by
  unfold enqueue at h
  split at h
  · cases h; rfl
  · cases h

theorem capacity_of_enqueue (h : q.enqueue a = some q') : q'.capacity = q.capacity := by
  unfold enqueue at h
  split at h
  · cases h; rfl
  · cases h

/-- `enqueue` fails exactly on a full queue. -/
theorem enqueue_eq_none_iff : q.enqueue a = none ↔ q.capacity ≤ q.items.length := by
  unfold enqueue
  split <;> simp <;> omega

theorem exists_enqueue (h : q.items.length < q.capacity) :
    ∃ q', q.enqueue a = some q' ∧ q'.items = q.items ++ [a] ∧ q'.capacity = q.capacity := by
  have hq : q.enqueue a ≠ none := fun hnone => by
    have := enqueue_eq_none_iff.mp hnone
    omega
  obtain ⟨q', hq'⟩ := Option.ne_none_iff_exists'.mp hq
  exact ⟨q', hq', items_of_enqueue hq', capacity_of_enqueue hq'⟩

theorem dequeue_eq_none_iff : q.dequeue = none ↔ q.items = [] := by
  unfold dequeue
  split <;> simp_all

/-- A successful `dequeue` hands out the head and keeps the rest in order. -/
theorem items_of_dequeue (h : q.dequeue = some (a, q')) : q.items = a :: q'.items := by
  unfold dequeue at h
  split at h
  · cases h
  next b rest hq => cases h; exact hq

/-- A burst splits the contents: what is taken, then what stays. -/
theorem dequeueBurst_append (q : BoundedFifo α) (n : ℕ) :
    (q.dequeueBurst n).1 ++ (q.dequeueBurst n).2.items = q.items :=
  List.take_append_drop n q.items

end BoundedFifo
