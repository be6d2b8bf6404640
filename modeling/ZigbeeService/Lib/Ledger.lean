-- SUMMARY: A drop-oldest queue with its history: what was pushed, taken and evicted, and that nothing else happens to an entry.
import Mathlib.Data.List.Perm.Basic
import Mathlib.Data.List.Nodup
import ZigbeeService.Lib.Fifo

/-!
# Ledgers

A ledger is a bounded queue and a record of everything that went through it. Entries are numbered in
the order they were pushed, so that two entries of the same contents stay apart. The fields say that
the books balance, and there is no way to build a ledger whose books do not.
-/

/-- An entry and its number. -/
structure Tagged (α : Type*) where
  tag : Nat
  val : α
  deriving DecidableEq

/-- A queue, and the entries that were ever pushed to it, oldest first. -/
structure Ledger (α : Type*) where
  queue : Fifo (Tagged α)
  log : List (Tagged α)
  /-- The entries that were taken off the front, in that order. -/
  taken : List (Tagged α)
  /-- The entries that a push on a full queue discarded. -/
  evicted : List (Tagged α)
  tags : log.map Tagged.tag = List.range log.length
  perm : (evicted ++ (taken ++ queue.items)).Perm log
  order : (taken ++ queue.items).Sublist log

namespace Ledger

variable {α : Type*}

def empty (cap : Nat) (h : 0 < cap) : Ledger α where
  queue := Fifo.empty cap h
  log := []
  taken := []
  evicted := []
  tags := rfl
  perm := List.Perm.refl _
  order := List.Sublist.refl _

/-- The entry that a push would append. -/
def next (l : Ledger α) (a : α) : Tagged α := ⟨l.log.length, a⟩

/-- Append an entry; a full queue discards its oldest one first. -/
def push (l : Ledger α) (a : α) : Ledger α where
  queue := l.queue.push (l.next a)
  log := l.log ++ [l.next a]
  taken := l.taken
  evicted := l.evicted ++ l.queue.evicted
  tags := by
    rw [List.map_append, l.tags, List.length_append, List.length_singleton, List.range_succ]
    rfl
  perm := by
    have hsplit : l.evicted ++ l.queue.evicted ++ (l.taken ++ (l.queue.room ++ [l.next a])) =
        l.evicted ++ (l.queue.evicted ++ l.taken) ++ l.queue.room ++ [l.next a] := by simp
    have hswap : (l.evicted ++ (l.queue.evicted ++ l.taken) ++ l.queue.room).Perm
        (l.evicted ++ (l.taken ++ l.queue.items)) := by
      rw [← l.queue.evicted_append_room, List.append_assoc, ← List.append_assoc l.taken]
      exact (List.perm_append_comm.append_right _).append_left _
    rw [Fifo.push_items, hsplit]
    exact (hswap.trans l.perm).append_right _
  order := by
    have hroom : l.queue.room.Sublist l.queue.items := by
      rw [← l.queue.evicted_append_room]
      exact List.sublist_append_right _ _
    rw [Fifo.push_items, ← List.append_assoc]
    exact ((hroom.append_left _).trans l.order).append_right _

/-- Take the oldest entry off the queue, if there is one. -/
def take (l : Ledger α) : Ledger α where
  queue := l.queue.drop
  log := l.log
  taken := l.taken ++ l.queue.items.take 1
  evicted := l.evicted
  tags := l.tags
  perm := by
    rw [Fifo.drop_items, ← List.drop_one, List.append_assoc, List.take_append_drop]
    exact l.perm
  order := by
    rw [Fifo.drop_items, ← List.drop_one, List.append_assoc, List.take_append_drop]
    exact l.order

@[simp] theorem push_queue (l : Ledger α) (a : α) : (l.push a).queue = l.queue.push (l.next a) :=
  rfl

@[simp] theorem push_log (l : Ledger α) (a : α) : (l.push a).log = l.log ++ [l.next a] := rfl

@[simp] theorem push_taken (l : Ledger α) (a : α) : (l.push a).taken = l.taken := rfl

@[simp] theorem take_queue (l : Ledger α) : l.take.queue = l.queue.drop := rfl

@[simp] theorem take_log (l : Ledger α) : l.take.log = l.log := rfl

theorem take_taken {l : Ledger α} {e : Tagged α} (h : l.queue.front = some e) :
    l.take.taken = l.taken ++ [e] := by
  obtain ⟨es, hes⟩ := List.head?_eq_some_iff.mp h
  simp [take, hes]

/-- No two entries have one number. -/
theorem nodup (l : Ledger α) : l.log.Nodup := by
  apply List.Nodup.of_map Tagged.tag
  rw [l.tags]
  exact List.nodup_range

/-- Every entry is in exactly one place: discarded, taken, or still in the queue. -/
theorem partition (l : Ledger α) : (l.evicted ++ (l.taken ++ l.queue.items)).Nodup :=
  l.perm.nodup_iff.mpr l.nodup

theorem mem_log {l : Ledger α} {e : Tagged α} :
    e ∈ l.log ↔ e ∈ l.evicted ∨ e ∈ l.taken ∨ e ∈ l.queue.items := by
  rw [← l.perm.mem_iff, List.mem_append, List.mem_append]

end Ledger
