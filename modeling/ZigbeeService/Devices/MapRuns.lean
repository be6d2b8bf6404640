-- SUMMARY: What the maps of the service hold after any sequence of changes (map.c).
import ZigbeeService.Lib.HashMapSize
import ZigbeeService.Devices.Map

/-!
# Runs of map operations

A map from texts, as its users see it, is a function; `edgex_map_set` and `edgex_map_remove` change
it at one key. The model counts nodes and buckets without a bound. In the source both counters are
`unsigned`, and `edgex_map_set_` doubles the number of buckets in an `int`: it cannot double 2 ^ 30
of them, and fails. A map that never has more than 2 ^ 30 keys does not get there.
-/

namespace Zigbee

open CLib

section Runs

variable {α : Type}

/-- The operations that change a map. -/
inductive MapOp (α : Type) where
  | set (key : Text) (value : α)
  | remove (key : Text)

def MapOp.apply (m : EdgexMap α) : MapOp α → EdgexMap α
  | .set key value => m.set key value
  | .remove key => m.remove key

/-- What the operation is for. -/
def MapOp.spec (f : Text → Option α) : MapOp α → Text → Option α
  | .set key value => Function.update f key (some value)
  | .remove key => Function.update f key none

/-- The map that the operations leave, from `edgex_map_init` on. -/
def mapAfter (ops : List (MapOp α)) : EdgexMap α := ops.foldl MapOp.apply (HashMap.init edgexHash α)

def specAfter (ops : List (MapOp α)) : Text → Option α := ops.foldl MapOp.spec fun _ => none

theorem MapOp.get_apply (m : EdgexMap α) (op : MapOp α) : (op.apply m).get = op.spec m.get := by
  funext k
  cases op with
  | set key value => exact (HashMap.get_set m key value k).trans (Function.update_apply ..).symm
  | remove key => exact (HashMap.get_remove m key k).trans (Function.update_apply ..).symm

theorem MapOp.sized_apply {m : EdgexMap α} (h : m.Sized) (op : MapOp α) : (op.apply m).Sized := by
  cases op with
  | set key value => exact h.set key value
  | remove key => exact h.remove key

theorem foldl_apply {m : EdgexMap α} (h : m.Sized) (ops : List (MapOp α)) :
    (ops.foldl MapOp.apply m).Sized ∧ (ops.foldl MapOp.apply m).get = ops.foldl MapOp.spec m.get := by
  induction ops generalizing m with
  | nil => exact ⟨h, rfl⟩
  | cons op ops ih =>
    obtain ⟨hsized, hget⟩ := ih (MapOp.sized_apply h op)
    rw [MapOp.get_apply] at hget
    exact ⟨hsized, hget⟩

theorem mapAfter_concat (ops : List (MapOp α)) (op : MapOp α) :
    mapAfter (ops ++ [op]) = op.apply (mapAfter ops) := by
  rw [mapAfter, mapAfter, List.foldl_append]
  rfl

/-- The buckets of a map that never has more than a power of two of keys. -/
theorem mapAfter_buckets_le {k : Nat} {ops : List (MapOp α)}
    (h : ∀ ops', ops' <+: ops → (mapAfter ops').nnodes ≤ 2 ^ k) :
    (mapAfter ops).buckets.length ≤ 2 ^ k := by
  induction ops using List.reverseRecOn with
  | nil => exact Nat.zero_le _
  | append_singleton ops op ih =>
    have hbuckets := ih fun ops' hbefore => h ops' (hbefore.trans (List.prefix_append ops [op]))
    have hnodes := h _ List.prefix_rfl
    have hinit : (HashMap.init edgexHash α).Sized := HashMap.sized_init
    rw [mapAfter_concat] at hnodes ⊢
    cases op with
    | set key value => exact (foldl_apply hinit ops).1.set_buckets_le hbuckets hnodes
    | remove key => exact (List.length_modify ..).trans_le hbuckets

end Runs

/-- After any sequence of changes a map holds what a function holds that is changed the same way. A
walk visits the keys with a value once each; `nnodes` is their number, and there are no more of them
than buckets, of which there is a power of two. While there are at most 2 ^ 30 keys, there are no
more buckets than that. -/
theorem edgexMap_refines {α : Type} (ops : List (MapOp α)) :
    (∀ key, (mapAfter ops).get key = specAfter ops key) ∧
    ((mapAfter ops).walk (HashMap.iter Text α)).Nodup ∧
    (∀ key, key ∈ (mapAfter ops).walk (HashMap.iter Text α) ↔ specAfter ops key ≠ none) ∧
    (mapAfter ops).nnodes = ((mapAfter ops).walk (HashMap.iter Text α)).length ∧
    ((mapAfter ops).buckets = [] ∨ ∃ k, (mapAfter ops).buckets.length = 2 ^ k) ∧
    (mapAfter ops).nnodes ≤ (mapAfter ops).buckets.length ∧
    ((∀ ops', ops' <+: ops → (mapAfter ops').nnodes ≤ 2 ^ 30) →
      (mapAfter ops).buckets.length ≤ 2 ^ 30) := by
  have hinit : (HashMap.init edgexHash α).Sized := HashMap.sized_init
  obtain ⟨hsized, hget⟩ := foldl_apply hinit ops
  rw [HashMap.walk_iter]
  refine ⟨fun key => congrFun hget key, HashMap.nodup_keys _, fun key => ?_, hsized.nnodes,
    hsized.power, hsized.load, mapAfter_buckets_le⟩
  rw [HashMap.mem_keys]
  exact iff_of_eq (congrArg (· ≠ none) (congrFun hget key))

end Zigbee
