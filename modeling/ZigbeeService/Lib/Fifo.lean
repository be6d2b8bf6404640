-- SUMMARY: A bounded first-in first-out queue that discards its oldest entry when it is full.
import Mathlib.Tactic.Common

/-!
# Drop-oldest queues

The queue carries its bound: no operation can build one that holds more than its capacity.
-/

/-- A queue of at most `cap` entries, oldest first. -/
structure Fifo (α : Type*) where
  cap : Nat
  items : List α
  cap_pos : 0 < cap
  length_le : items.length ≤ cap

namespace Fifo

variable {α : Type*}

/-- The empty queue of a given capacity. -/
def empty (cap : Nat) (h : 0 < cap) : Fifo α := ⟨cap, [], h, Nat.zero_le _⟩

/-- What is kept of a queue to make room for one more entry: all of it, or all but the oldest entry
of a full one. -/
def room (q : Fifo α) : List α := if q.items.length = q.cap then q.items.tail else q.items

theorem room_length_lt (q : Fifo α) : q.room.length < q.cap := by
  have hpos := q.cap_pos
  have hle := q.length_le
  unfold room
  split
  · rw [List.length_tail]; omega
  · omega

/-- Append an entry, after discarding the oldest one when the queue is full. -/
def push (q : Fifo α) (a : α) : Fifo α where
  cap := q.cap
  items := q.room ++ [a]
  cap_pos := q.cap_pos
  length_le := by
    have h := q.room_length_lt
    rw [List.length_append, List.length_singleton]
    omega

/-- The oldest entry. -/
def front (q : Fifo α) : Option α := q.items.head?

/-- Discard the oldest entry, if there is one. -/
def drop (q : Fifo α) : Fifo α where
  cap := q.cap
  items := q.items.tail
  cap_pos := q.cap_pos
  length_le := by rw [List.length_tail]; have := q.length_le; omega

/-- The entry that the next `push` discards. -/
def evicted (q : Fifo α) : List α := if q.items.length = q.cap then q.items.take 1 else []

/-- The same queue, of what the entries are mapped to. -/
def map {β : Type*} (f : α → β) (q : Fifo α) : Fifo β where
  cap := q.cap
  items := q.items.map f
  cap_pos := q.cap_pos
  length_le := by rw [List.length_map]; exact q.length_le

@[simp] theorem push_items (q : Fifo α) (a : α) : (q.push a).items = q.room ++ [a] := rfl

@[simp] theorem push_cap (q : Fifo α) (a : α) : (q.push a).cap = q.cap := rfl

@[simp] theorem drop_items (q : Fifo α) : q.drop.items = q.items.tail := rfl

section Map

variable {β : Type*} (f : α → β) (q : Fifo α)

theorem map_front : (q.map f).front = q.front.map f := by simp [map, front]

theorem map_drop : (q.map f).drop = q.drop.map f := by simp [map, drop]

theorem map_push (a : α) : (q.map f).push (f a) = (q.push a).map f := by
  simp only [push, map, room, List.length_map]
  split <;> simp

end Map

/-- A queue is what the next `push` discards and what it keeps. -/
theorem evicted_append_room (q : Fifo α) : q.evicted ++ q.room = q.items := by
  unfold evicted room
  split
  · rw [← List.drop_one, List.take_append_drop]
  · simp

theorem room_subset (q : Fifo α) {a : α} (h : a ∈ q.room) : a ∈ q.items := by
  rw [← q.evicted_append_room]
  exact List.mem_append_right _ h

theorem mem_push {q : Fifo α} {a b : α} : b ∈ (q.push a).items ↔ b ∈ q.room ∨ b = a := by simp

/-- Only the oldest entry of a full queue is ever discarded. -/
theorem evicted_eq {q : Fifo α} {a : α} (h : a ∈ q.evicted) :
    q.items.length = q.cap ∧ q.front = some a := by
  unfold evicted at h
  split at h
  case isFalse => simp at h
  case isTrue hfull =>
    refine ⟨hfull, ?_⟩
    cases hq : q.items with
    | nil => simp [hq] at h
    | cons b bs =>
      rw [hq, List.take_succ_cons, List.take_zero, List.mem_singleton] at h
      simp [front, hq, h]

end Fifo
