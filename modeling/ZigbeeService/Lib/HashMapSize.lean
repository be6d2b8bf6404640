-- SUMMARY: How many nodes and buckets a hash table has, and what a whole walk over it visits.
import Mathlib.Data.List.Perm.Basic
import ZigbeeService.Lib.HashMap

/-!
# Sizes of hash tables

A table that is only changed by `set` and `remove` counts its nodes, has a power of two of buckets as
soon as it holds a node, and never more nodes than buckets. A walk from its start visits each key
once.
-/

namespace CLib

namespace HashMap

variable {κ α : Type} [DecidableEq κ] {hash : κ → UInt32}

/-! ## Keys -/

/-- The keys in the order of a walk. -/
def keys (m : HashMap hash α) : List κ := m.entries.map Prod.fst

omit [DecidableEq κ] in
theorem nodup_keys (m : HashMap hash α) : m.keys.Nodup := m.placed.flatten_nodup

theorem mem_keys {m : HashMap hash α} {key : κ} : key ∈ m.keys ↔ m.get key ≠ none := by
  rw [keys, List.mem_map, Option.ne_none_iff_exists']
  constructor
  · rintro ⟨⟨k, v⟩, hmem, rfl⟩
    exact ⟨v, mem_entries.mp hmem⟩
  · rintro ⟨v, hget⟩
    exact ⟨(key, v), mem_entries.mpr hget, rfl⟩

/-- A key that is new comes to the others. -/
theorem keys_set_new {m : HashMap hash α} {key : κ} (h : m.get key = none) (v : α) :
    (m.set key v).keys.Perm (key :: m.keys) := by
  have hnot : key ∉ m.keys := fun hmem => mem_keys.mp hmem h
  refine (List.perm_ext_iff_of_nodup (nodup_keys _) (List.nodup_cons.mpr ⟨hnot, nodup_keys m⟩)).mpr
    fun k => ?_
  rw [mem_keys, get_set, List.mem_cons, mem_keys]
  by_cases hk : k = key <;> simp [hk]

theorem keys_set_old {m : HashMap hash α} {key : κ} (h : m.get key ≠ none) (v : α) :
    (m.set key v).keys.Perm m.keys := by
  refine (List.perm_ext_iff_of_nodup (nodup_keys _) (nodup_keys m)).mpr fun k => ?_
  rw [mem_keys, get_set, mem_keys]
  by_cases hk : k = key
  · simp [hk, h]
  · rw [if_neg hk]

theorem keys_remove (m : HashMap hash α) (key : κ) :
    (m.remove key).keys.Perm (m.keys.erase key) := by
  refine (List.perm_ext_iff_of_nodup (nodup_keys _) ((nodup_keys m).erase key)).mpr fun k => ?_
  rw [mem_keys, get_remove, (nodup_keys m).mem_erase_iff, mem_keys]
  by_cases hk : k = key <;> simp [hk]

/-! ## Counts -/

/-- The nodes are counted, and there are at least as many buckets, in a power of two. -/
structure Sized (m : HashMap hash α) : Prop where
  nnodes : m.nnodes = m.keys.length
  load : m.nnodes ≤ m.buckets.length
  power : m.buckets = [] ∨ ∃ k, m.buckets.length = 2 ^ k

omit [DecidableEq κ] in
theorem sized_init : (init hash α).Sized := ⟨rfl, Nat.le_refl 0, .inl rfl⟩

/-- A full table grows to twice its buckets, or to its first. -/
theorem length_grow (m : HashMap hash α) :
    m.grow.buckets.length =
      if m.buckets.length ≤ m.nnodes then
        if 0 < m.buckets.length then 2 * m.buckets.length else 1
      else m.buckets.length := by
  unfold HashMap.grow
  by_cases hfull : m.buckets.length ≤ m.nnodes
  · rw [if_pos hfull, if_pos hfull]
    exact (m.placed.resize
      (n := if 0 < m.buckets.length then 2 * m.buckets.length else 1) (by split <;> omega)).2.1
  · rw [if_neg hfull, if_neg hfull]

section Set

variable {m : HashMap hash α} {key : κ}

/-- A new key takes a node of a table that has grown. -/
theorem nnodes_set_new (h : m.get key = none) (v : α) : (m.set key v).nnodes = m.nnodes + 1 := by
  rw [HashMap.set, dif_pos h]

theorem length_set_new (h : m.get key = none) (v : α) :
    (m.set key v).buckets.length = m.grow.buckets.length := by
  rw [HashMap.set, dif_pos h]
  exact List.length_modify ..

/-- A key that is there keeps its node. -/
theorem nnodes_set_old (h : m.get key ≠ none) (v : α) : (m.set key v).nnodes = m.nnodes := by
  rw [HashMap.set, dif_neg h]

theorem length_set_old (h : m.get key ≠ none) (v : α) :
    (m.set key v).buckets.length = m.buckets.length := by
  rw [HashMap.set, dif_neg h]
  exact List.length_modify ..

end Set

/-- A table that grew has room for one more node. -/
theorem Sized.grow {m : HashMap hash α} (h : m.Sized) :
    m.nnodes + 1 ≤ m.grow.buckets.length ∧ ∃ k, m.grow.buckets.length = 2 ^ k := by
  obtain ⟨-, hload, hpower⟩ := h
  rw [length_grow]
  by_cases hfull : m.buckets.length ≤ m.nnodes
  · rw [if_pos hfull]
    rcases hpower with hnil | ⟨k, hk⟩
    · rw [hnil] at hload ⊢
      exact ⟨Nat.succ_le_succ hload, 0, rfl⟩
    · have hpos : 0 < m.buckets.length := hk ▸ Nat.two_pow_pos k
      rw [if_pos hpos]
      refine ⟨by omega, k + 1, ?_⟩
      rw [hk, Nat.pow_succ, Nat.mul_comm]
  · rw [if_neg hfull]
    refine ⟨by omega, hpower.resolve_left fun hnil => ?_⟩
    rw [hnil] at hfull
    exact hfull (Nat.zero_le _)

theorem Sized.set {m : HashMap hash α} (h : m.Sized) (key : κ) (v : α) : (m.set key v).Sized := by
  by_cases hget : m.get key = none
  · obtain ⟨hload, hpower⟩ := h.grow
    refine ⟨?_, ?_, .inr ?_⟩
    · rw [nnodes_set_new hget, (keys_set_new hget v).length_eq, List.length_cons, h.nnodes]
    · rw [nnodes_set_new hget, length_set_new hget]
      exact hload
    · rw [length_set_new hget]
      exact hpower
  · refine ⟨?_, ?_, ?_⟩
    · rw [nnodes_set_old hget, (keys_set_old hget v).length_eq, h.nnodes]
    · rw [nnodes_set_old hget, length_set_old hget]
      exact h.load
    · rw [← List.length_eq_zero_iff, length_set_old hget, List.length_eq_zero_iff]
      exact h.power

theorem Sized.remove {m : HashMap hash α} (h : m.Sized) (key : κ) : (m.remove key).Sized := by
  have hbuckets : (m.remove key).buckets.length = m.buckets.length := List.length_modify ..
  have hnnodes : (m.remove key).nnodes = if m.get key = none then m.nnodes else m.nnodes - 1 := rfl
  have hle : (m.remove key).nnodes ≤ m.nnodes := by
    rw [hnnodes]
    split <;> omega
  refine ⟨?_, ?_, ?_⟩
  · rw [hnnodes, (keys_remove m key).length_eq, List.length_erase, h.nnodes]
    by_cases hget : m.get key = none
    · rw [if_pos hget, if_neg fun hmem => mem_keys.mp hmem hget]
    · rw [if_neg hget, if_pos (mem_keys.mpr hget)]
  · rw [hbuckets]
    exact hle.trans h.load
  · rw [← List.length_eq_zero_iff, hbuckets, List.length_eq_zero_iff]
    exact h.power

/-- A table does not outgrow a power of two that its nodes stay below. -/
theorem Sized.set_buckets_le {m : HashMap hash α} (h : m.Sized) {k : Nat}
    (hbuckets : m.buckets.length ≤ 2 ^ k) {key : κ} {v : α}
    (hnodes : (m.set key v).nnodes ≤ 2 ^ k) : (m.set key v).buckets.length ≤ 2 ^ k := by
  by_cases hget : m.get key = none
  · rw [nnodes_set_new hget] at hnodes
    rw [length_set_new hget, length_grow]
    by_cases hfull : m.buckets.length ≤ m.nnodes
    · rw [if_pos hfull]
      rcases h.power with hnil | ⟨j, hj⟩
      · rw [hnil]
        exact Nat.two_pow_pos k
      · -- a smaller power of two can still be doubled
        have hlt : 2 ^ j < 2 ^ k := by omega
        have hle : 2 ^ (j + 1) ≤ 2 ^ k :=
          Nat.pow_le_pow_right (by decide) ((Nat.pow_lt_pow_iff_right (by decide)).mp hlt)
        rw [if_pos (hj ▸ Nat.two_pow_pos j), hj, Nat.mul_comm, ← Nat.pow_succ]
        exact hle
    · rw [if_neg hfull]
      exact hbuckets
  · rw [length_set_old hget]
    exact hbuckets

/-! ## Whole walks -/

/-- The keys that `next` returns from a cursor on. -/
def walk (m : HashMap hash α) (c : Cursor κ α) : List κ :=
  match _h : m.next c with
  | none => []
  | some (key, c') => key :: m.walk c'
termination_by (m.remaining c).length
decreasing_by
  rcases m.next_cases c with ⟨hnone, -⟩ | ⟨key', v, c'', hsome, hrest⟩
  · rw [hnone] at _h
    cases _h
  · rw [hsome] at _h
    cases _h
    rw [hrest, List.length_cons]
    exact Nat.lt_succ_self _

omit [DecidableEq κ] in
theorem walk_eq (m : HashMap hash α) (c : Cursor κ α) :
    m.walk c = (m.remaining c).map Prod.fst := by
  induction hn : (m.remaining c).length generalizing c with
  | zero =>
    rcases m.next_cases c with ⟨hnone, hrest⟩ | ⟨key, v, c', hsome, hrest⟩
    · rw [walk.eq_def, hrest]
      split
      · rfl
      · next hsome => rw [hnone] at hsome; cases hsome
    · rw [hrest] at hn
      cases hn
  | succ n ih =>
    rcases m.next_cases c with ⟨hnone, hrest⟩ | ⟨key, v, c', hsome, hrest⟩
    · rw [hrest] at hn
      cases hn
    · rw [hrest, List.length_cons] at hn
      rw [walk.eq_def, hrest, List.map_cons, ← ih c' (by omega)]
      split
      · next hnone => rw [hsome] at hnone; cases hnone
      · next hsome' =>
        rw [hsome] at hsome'
        cases hsome'
        rfl

omit [DecidableEq κ] in
/-- A walk from the start ends, and visits each key once. -/
theorem walk_iter (m : HashMap hash α) : m.walk (iter κ α) = m.keys := by
  rw [walk_eq, remaining_iter, keys]

end HashMap

end CLib
