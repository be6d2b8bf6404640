-- SUMMARY: Hash tables with chained buckets: looking up, storing, growing, removing, and walking over the nodes.
import Mathlib.Data.UInt
import ZigbeeService.Lib.AssocList

/-!
# Hash tables

A table is an array of buckets, each a chain of nodes. A node stands in the bucket its hash selects,
and no key stands in a bucket twice; a `HashMap` carries both facts. What a table holds is told by
`get` alone; the order of its nodes only matters to a walk, which `next` advances.
-/

namespace CLib

variable {κ α : Type} [DecidableEq κ] {hash : κ → UInt32}

/-! ## Buckets -/

/-- `hash & (nbuckets - 1)`. -/
def bucketIdx (hash : κ → UInt32) (nbuckets : Nat) (key : κ) : Nat :=
  (hash key).toNat &&& (nbuckets - 1)

/-- The bucket of a key. A table without buckets holds nothing. -/
def bucketOf (hash : κ → UInt32) (bs : List (List (κ × α))) (key : κ) : List (κ × α) :=
  bs.getD (bucketIdx hash bs.length key) []

/-- The value in the bucket of a key. -/
def bucketGet (hash : κ → UInt32) (bs : List (List (κ × α))) (key : κ) : Option α :=
  assocGet key (bucketOf hash bs key)

/-- A new node goes to the front of its bucket. -/
def addNode (hash : κ → UInt32) (bs : List (List (κ × α))) (p : κ × α) : List (List (κ × α)) :=
  bs.modify (bucketIdx hash bs.length p.1) (p :: ·)

/-- Chain all nodes together, from the last bucket to the first, each in front of those before it,
and add them to `n` empty buckets. -/
def resize (hash : κ → UInt32) (bs : List (List (κ × α))) (n : Nat) : List (List (κ × α)) :=
  bs.reverse.flatten.reverse.foldl (addNode hash) (List.replicate n [])

/-- Every node stands in its bucket, and no key stands in a bucket twice. -/
structure Placed (hash : κ → UInt32) (bs : List (List (κ × α))) : Prop where
  idx : ∀ {i b}, bs[i]? = some b → ∀ p ∈ b, bucketIdx hash bs.length p.1 = i
  nodup : ∀ b ∈ bs, (b.map Prod.fst).Nodup

omit [DecidableEq κ] in
theorem bucketIdx_lt {n : Nat} (hn : 0 < n) (key : κ) : bucketIdx hash n key < n := by
  have hle : bucketIdx hash n key ≤ n - 1 := Nat.and_le_right
  omega

/-- Without a key twice, a lookup finds what the list holds. -/
theorem assocGet_eq_some_iff {l : List (κ × α)} (h : (l.map Prod.fst).Nodup) {key : κ} {v : α} :
    assocGet key l = some v ↔ (key, v) ∈ l := by
  induction l with
  | nil => simp [assocGet_nil]
  | cons p l ih =>
    obtain ⟨k, w⟩ := p
    rw [List.map_cons, List.nodup_cons] at h
    rw [assocGet_cons, List.mem_cons]
    by_cases hk : key = k
    · subst hk
      have hnot : (key, v) ∉ l := fun hmem => h.1 (List.mem_map.mpr ⟨_, hmem, rfl⟩)
      simp [hnot, eq_comm]
    · rw [if_neg hk, ih h.2]
      simp [hk]

theorem assocGet_eraseP {l : List (κ × α)} (h : (l.map Prod.fst).Nodup) (key k : κ) :
    assocGet k (l.eraseP fun p => p.1 = key) = if k = key then none else assocGet k l := by
  induction l with
  | nil => simp [assocGet_nil]
  | cons p l ih =>
    obtain ⟨k', w⟩ := p
    rw [List.map_cons, List.nodup_cons] at h
    by_cases hk : k' = key
    · subst hk
      rw [List.eraseP_cons_of_pos (by simp), assocGet_cons]
      split
      · next heq => rw [heq, assocGet_eq_none.mpr h.1]
      · rfl
    · rw [List.eraseP_cons_of_neg (by simpa using hk), assocGet_cons, ih h.2, assocGet_cons]
      by_cases hkk : k = k'
      · subst hkk
        simp [hk]
      · simp [hkk]

/-- Changing the bucket of `key` is seen by the keys of that bucket. -/
theorem bucketGet_modify {bs : List (List (κ × α))} (hne : 0 < bs.length) (key k : κ)
    (f : List (κ × α) → List (κ × α)) :
    bucketGet hash (bs.modify (bucketIdx hash bs.length key) f) k =
      if bucketIdx hash bs.length k = bucketIdx hash bs.length key then
        assocGet k (f (bucketOf hash bs key)) else bucketGet hash bs k := by
  have hlt : bucketIdx hash bs.length key < bs.length := bucketIdx_lt hne key
  simp only [bucketGet, bucketOf, List.length_modify, List.getD_eq_getElem?_getD]
  by_cases heq : bucketIdx hash bs.length k = bucketIdx hash bs.length key
  · rw [if_pos heq, heq, List.getElem?_modify_eq, List.getElem?_eq_getElem hlt]
    rfl
  · have hne : bucketIdx hash bs.length key ≠ bucketIdx hash bs.length k := fun h => heq h.symm
    rw [if_neg heq, List.getElem?_modify_ne _ _ hne]

namespace Placed

variable {bs : List (List (κ × α))}

omit [DecidableEq κ] in
theorem replicate (n : Nat) : Placed hash (List.replicate n ([] : List (κ × α))) where
  idx := by
    intro i b hb p hp
    rw [List.eq_of_mem_replicate (List.mem_of_getElem? hb)] at hp
    cases hp
  nodup := by
    intro b hb
    rw [List.eq_of_mem_replicate hb]
    exact List.nodup_nil

omit [DecidableEq κ] in
theorem bucketOf_nodup (h : Placed hash bs) (key : κ) :
    ((bucketOf hash bs key).map Prod.fst).Nodup := by
  rw [bucketOf, List.getD_eq_getElem?_getD]
  cases hb : bs[bucketIdx hash bs.length key]? with
  | none => exact List.nodup_nil
  | some b => exact h.nodup b (List.mem_of_getElem? hb)

omit [DecidableEq κ] in
/-- A change of one bucket that brings no other key into it keeps every node in its place. -/
theorem modify (h : Placed hash bs) {key : κ} {f : List (κ × α) → List (κ × α)}
    (hkeys : ∀ b, ∀ p ∈ f b, p.1 = key ∨ p ∈ b)
    (hnodup : ((f (bucketOf hash bs key)).map Prod.fst).Nodup) :
    Placed hash (bs.modify (bucketIdx hash bs.length key) f) where
  idx := by
    intro i b hb p hp
    rw [List.length_modify]
    simp only [List.getElem?_modify, Option.map_eq_map, Option.map_eq_some_iff] at hb
    obtain ⟨b', hb', rfl⟩ := hb
    split at hp
    · next hi =>
      rcases hkeys b' p hp with hkey | hmem
      · rw [hkey, hi]
      · exact h.idx hb' p hmem
    · exact h.idx hb' p hp
  nodup := by
    intro b hb
    obtain ⟨i, hi⟩ := List.mem_iff_getElem?.mp hb
    simp only [List.getElem?_modify, Option.map_eq_map, Option.map_eq_some_iff] at hi
    obtain ⟨b', hb', rfl⟩ := hi
    split
    · next heq =>
      have hbucket : bucketOf hash bs key = b' := by
        rw [bucketOf, List.getD_eq_getElem?_getD, heq, hb', Option.getD_some]
      exact hbucket ▸ hnodup
    · exact h.nodup b' (List.mem_of_getElem? hb')

/-- The nodes of all buckets are what the lookups find. -/
theorem mem_flatten (h : Placed hash bs) {key : κ} {v : α} :
    (key, v) ∈ bs.flatten ↔ bucketGet hash bs key = some v := by
  rw [bucketGet, assocGet_eq_some_iff (h.bucketOf_nodup key), List.mem_flatten]
  constructor
  · rintro ⟨b, hb, hmem⟩
    obtain ⟨i, hi⟩ := List.mem_iff_getElem?.mp hb
    have hidx := h.idx hi _ hmem
    rw [bucketOf, List.getD_eq_getElem?_getD, hidx, hi]
    exact hmem
  · intro hmem
    rw [bucketOf, List.getD_eq_getElem?_getD] at hmem
    cases hb : bs[bucketIdx hash bs.length key]? with
    | none =>
      rw [hb] at hmem
      cases hmem
    | some b =>
      rw [hb] at hmem
      exact ⟨b, List.mem_of_getElem? hb, hmem⟩

/-- Adding a node whose key is new. -/
theorem addNode (h : Placed hash bs) {p : κ × α} (hnew : bucketGet hash bs p.1 = none) :
    Placed hash (addNode hash bs p) := by
  refine h.modify ?_ ?_
  · intro b q hq
    rcases List.mem_cons.mp hq with rfl | hmem
    · exact .inl rfl
    · exact .inr hmem
  · rw [List.map_cons, List.nodup_cons]
    exact ⟨assocGet_eq_none.mp hnew, h.bucketOf_nodup p.1⟩

end Placed

theorem bucketGet_addNode {bs : List (List (κ × α))} (hne : 0 < bs.length) (p : κ × α) (k : κ) :
    bucketGet hash (addNode hash bs p) k = if k = p.1 then some p.2 else bucketGet hash bs k := by
  rw [addNode, bucketGet_modify hne, assocGet_cons]
  by_cases hk : k = p.1
  · subst hk
    simp
  · rw [if_neg hk]
    split
    · next hidx => rw [bucketGet, bucketOf, bucketOf, hidx]
    · rfl

/-- Adding nodes with new and distinct keys, one after the other. -/
theorem foldl_addNode {ps : List (κ × α)} (hnodup : (ps.map Prod.fst).Nodup)
    {bs : List (List (κ × α))} (h : Placed hash bs) (hne : 0 < bs.length)
    (hnew : ∀ p ∈ ps, bucketGet hash bs p.1 = none) :
    Placed hash (ps.foldl (addNode hash) bs) ∧ (ps.foldl (addNode hash) bs).length = bs.length ∧
      ∀ k, bucketGet hash (ps.foldl (addNode hash) bs) k =
        (assocGet k ps).or (bucketGet hash bs k) := by
  induction ps generalizing bs with
  | nil => exact ⟨h, rfl, fun k => rfl⟩
  | cons p ps ih =>
    rw [List.map_cons, List.nodup_cons] at hnodup
    rw [List.forall_mem_cons] at hnew
    have hlength : (addNode hash bs p).length = bs.length := List.length_modify ..
    have hrest : ∀ q ∈ ps, bucketGet hash (addNode hash bs p) q.1 = none := by
      intro q hq
      have hqp : q.1 ≠ p.1 := fun heq => hnodup.1 (heq ▸ List.mem_map_of_mem hq)
      rw [bucketGet_addNode hne, if_neg hqp]
      exact hnew.2 q hq
    obtain ⟨hplaced, hlen, hget⟩ :=
      ih hnodup.2 (h.addNode hnew.1) (by rw [hlength]; exact hne) hrest
    refine ⟨hplaced, hlen.trans hlength, ?_⟩
    intro k
    rw [List.foldl_cons, hget, bucketGet_addNode hne, assocGet_cons]
    by_cases hk : k = p.1
    · subst hk
      rw [assocGet_eq_none.mpr hnodup.1]
      simp
    · simp [hk]

namespace Placed

variable {bs : List (List (κ × α))}

omit [DecidableEq κ] in
/-- No key stands in two nodes. -/
theorem flatten_nodup (h : Placed hash bs) : (bs.flatten.map Prod.fst).Nodup := by
  rw [List.map_flatten, List.nodup_flatten]
  constructor
  · intro keys hkeys
    obtain ⟨b, hb, rfl⟩ := List.mem_map.mp hkeys
    exact h.nodup b hb
  · rw [List.pairwise_map, List.pairwise_iff_getElem]
    intro i j hi hj hij k hk hk'
    obtain ⟨p, hp, rfl⟩ := List.mem_map.mp hk
    obtain ⟨q, hq, hqp⟩ := List.mem_map.mp hk'
    have hidx := h.idx (List.getElem?_eq_getElem hi) p hp
    have hidx' := h.idx (List.getElem?_eq_getElem hj) q hq
    rw [hqp, hidx] at hidx'
    exact absurd hidx' (Nat.ne_of_lt hij)

/-- A table of another size holds the same. -/
theorem resize (h : Placed hash bs) {n : Nat} (hn : 0 < n) :
    Placed hash (CLib.resize hash bs n) ∧ (CLib.resize hash bs n).length = n ∧
      ∀ k, bucketGet hash (CLib.resize hash bs n) k = bucketGet hash bs k := by
  have hperm : bs.reverse.flatten.reverse.Perm bs.flatten :=
    (List.reverse_perm _).trans (List.reverse_perm bs).flatten
  have hnodup : (bs.reverse.flatten.reverse.map Prod.fst).Nodup :=
    (hperm.map Prod.fst).nodup_iff.mpr h.flatten_nodup
  have hempty (k : κ) : bucketGet hash (List.replicate n ([] : List (κ × α))) k = none := by
    rw [bucketGet, bucketOf, List.getD_eq_getElem?_getD, List.getElem?_replicate]
    split <;> rfl
  have hlen : 0 < (List.replicate n ([] : List (κ × α))).length := by
    rw [List.length_replicate]
    exact hn
  obtain ⟨hplaced, hlength, hget⟩ :=
    foldl_addNode hnodup (.replicate n) hlen fun p _ => hempty p.1
  refine ⟨hplaced, hlength.trans List.length_replicate, ?_⟩
  intro k
  rw [CLib.resize, hget, hempty, Option.or_none]
  apply Option.ext
  intro v
  rw [assocGet_eq_some_iff hnodup, hperm.mem_iff, h.mem_flatten]

end Placed

/-! ## Tables -/

/-- A table, with the number of its nodes. -/
structure HashMap (hash : κ → UInt32) (α : Type) where
  buckets : List (List (κ × α))
  nnodes : Nat
  placed : Placed hash buckets

namespace HashMap

/-- The table of an initialised map. -/
def init (hash : κ → UInt32) (α : Type) : HashMap hash α := ⟨[], 0, .replicate 0⟩

/-- The value under `key`. -/
def get (m : HashMap hash α) (key : κ) : Option α := bucketGet hash m.buckets key

/-- The nodes in the order of a walk. -/
def entries (m : HashMap hash α) : List (κ × α) := m.buckets.flatten

/-- Room for one more node: the table doubles when it has no more buckets than nodes. -/
def grow (m : HashMap hash α) : HashMap hash α :=
  if m.buckets.length ≤ m.nnodes then
    { buckets := resize hash m.buckets (if 0 < m.buckets.length then 2 * m.buckets.length else 1)
      nnodes := m.nnodes
      placed := (m.placed.resize (by split <;> omega)).1 }
  else m

theorem get_grow (m : HashMap hash α) (k : κ) : m.grow.get k = m.get k := by
  unfold grow
  split
  · exact (m.placed.resize (by split <;> omega)).2.2 k
  · rfl

theorem grow_length_pos (m : HashMap hash α) : 0 < m.grow.buckets.length := by
  unfold grow
  split
  · rw [(m.placed.resize (by split <;> omega)).2.1]
    split <;> omega
  · omega

theorem placed_overwrite (m : HashMap hash α) (key : κ) (v : α) :
    Placed hash (m.buckets.modify (bucketIdx hash m.buckets.length key) (assocSet key v)) := by
  refine m.placed.modify ?_ (nodup_assocSet (m.placed.bucketOf_nodup key))
  intro b p hp
  induction b with
  | nil => exact .inl (congrArg Prod.fst (List.mem_singleton.mp hp))
  | cons q b ih =>
    obtain ⟨k, w⟩ := q
    rw [assocSet] at hp
    split at hp
    · rcases List.mem_cons.mp hp with rfl | hmem
      · exact .inl rfl
      · exact .inr (List.mem_cons_of_mem _ hmem)
    · rcases List.mem_cons.mp hp with rfl | hmem
      · exact .inr List.mem_cons_self
      · exact (ih hmem).imp_right (List.mem_cons_of_mem _)

/-- Store `v` under `key`: over the value that is there, or in a new node. -/
def set (m : HashMap hash α) (key : κ) (v : α) : HashMap hash α :=
  if h : m.get key = none then
    { buckets := addNode hash m.grow.buckets (key, v)
      nnodes := m.nnodes + 1
      placed := m.grow.placed.addNode ((m.get_grow key).trans h) }
  else
    { buckets := m.buckets.modify (bucketIdx hash m.buckets.length key) (assocSet key v)
      nnodes := m.nnodes
      placed := m.placed_overwrite key v }

/-- Take out the node of `key`. -/
def remove (m : HashMap hash α) (key : κ) : HashMap hash α where
  buckets := m.buckets.modify (bucketIdx hash m.buckets.length key) (·.eraseP fun p => p.1 = key)
  nnodes := if m.get key = none then m.nnodes else m.nnodes - 1
  placed := m.placed.modify (fun _ _ hp => .inr (List.mem_of_mem_eraseP hp))
    ((List.Sublist.map _ List.eraseP_sublist).nodup (m.placed.bucketOf_nodup key))

theorem get_set (m : HashMap hash α) (key : κ) (v : α) (k : κ) :
    (m.set key v).get k = if k = key then some v else m.get k := by
  unfold set
  split
  · exact (bucketGet_addNode m.grow_length_pos (key, v) k).trans (by rw [← get_grow m k]; rfl)
  · next h =>
    have hne : 0 < m.buckets.length := by
      apply Nat.pos_of_ne_zero
      intro hzero
      rw [List.length_eq_zero_iff] at hzero
      exact h (by rw [get, hzero]; rfl)
    refine (bucketGet_modify hne key k _).trans ?_
    rw [assocGet_assocSet]
    by_cases hk : k = key
    · subst hk
      simp
    · simp only [hk, if_false]
      split
      · next hidx => rw [get, bucketGet, bucketOf, bucketOf, hidx]
      · rfl

theorem get_remove (m : HashMap hash α) (key k : κ) :
    (m.remove key).get k = if k = key then none else m.get k := by
  by_cases hne : 0 < m.buckets.length
  · refine (bucketGet_modify hne key k _).trans ?_
    rw [assocGet_eraseP (m.placed.bucketOf_nodup key)]
    by_cases hk : k = key
    · subst hk
      simp
    · simp only [hk, if_false]
      split
      · next hidx => rw [get, bucketGet, bucketOf, bucketOf, hidx]
      · rfl
  · have hnil : m.buckets = [] := List.eq_nil_of_length_eq_zero (by omega)
    simp only [get, remove, hnil, List.modify_nil]
    simp [bucketGet, bucketOf, assocGet_nil]

theorem mem_entries {m : HashMap hash α} {key : κ} {v : α} :
    (key, v) ∈ m.entries ↔ m.get key = some v := m.placed.mem_flatten

/-! ## Walks -/

/-- `edgex_map_iter`: how many buckets were entered, and the chain that starts at the current node. -/
structure Cursor (κ α : Type) where
  entered : Nat
  node : List (κ × α)

/-- The start of a walk. -/
def iter (κ α : Type) : Cursor κ α := ⟨0, []⟩

/-- The first node of the buckets that are left. -/
def nextBucket (entered : Nat) : List (List (κ × α)) → Option (κ × Cursor κ α)
  | [] => none
  | [] :: bs => nextBucket (entered + 1) bs
  | (p :: b) :: _ => some (p.1, ⟨entered + 1, p :: b⟩)

/-- Move on to the next node, and return its key. -/
def next (m : HashMap hash α) (c : Cursor κ α) : Option (κ × Cursor κ α) :=
  match c.node with
  | _ :: p :: b => some (p.1, ⟨c.entered, p :: b⟩)
  | _ => nextBucket c.entered (m.buckets.drop c.entered)

/-- The nodes a walk has yet to visit. -/
def remaining (m : HashMap hash α) (c : Cursor κ α) : List (κ × α) :=
  c.node.tail ++ (m.buckets.drop c.entered).flatten

omit [DecidableEq κ] in
theorem nextBucket_eq_none {entered : Nat} {bs : List (List (κ × α))}
    (h : nextBucket entered bs = none) : bs.flatten = [] := by
  induction bs generalizing entered with
  | nil => rfl
  | cons b bs ih =>
    cases b with
    | nil => exact ih h
    | cons p b => cases h

omit [DecidableEq κ] in
/-- The buckets that are skipped are empty. -/
theorem nextBucket_eq_some {entered : Nat} {bs : List (List (κ × α))} {key : κ} {c : Cursor κ α}
    (h : nextBucket entered bs = some (key, c)) :
    ∃ n v b rest, bs = List.replicate n [] ++ ((key, v) :: b) :: rest ∧
      c = ⟨entered + n + 1, (key, v) :: b⟩ := by
  induction bs generalizing entered with
  | nil => cases h
  | cons b bs ih =>
    cases b with
    | nil =>
      obtain ⟨n, v, b, rest, rfl, rfl⟩ := ih h
      exact ⟨n + 1, v, b, rest, rfl, by rw [Nat.add_right_comm entered 1 n, Nat.add_assoc entered n 1]⟩
    | cons p b =>
      cases h
      exact ⟨0, p.2, b, bs, rfl, rfl⟩

omit [DecidableEq κ] in
@[simp] theorem remaining_iter (m : HashMap hash α) : m.remaining (iter κ α) = m.entries := rfl

omit [DecidableEq κ] in
/-- A walk visits the nodes in order, and ends behind the last one. -/
theorem next_cases (m : HashMap hash α) (c : Cursor κ α) :
    (m.next c = none ∧ m.remaining c = []) ∨
      ∃ key v c', m.next c = some (key, c') ∧ m.remaining c = (key, v) :: m.remaining c' := by
  obtain ⟨entered, node⟩ := c
  have hbucket (hnode : node.tail = [])
      (hnext : m.next ⟨entered, node⟩ = nextBucket entered (m.buckets.drop entered)) :
      (m.next ⟨entered, node⟩ = none ∧ m.remaining ⟨entered, node⟩ = []) ∨
        ∃ key v c', m.next ⟨entered, node⟩ = some (key, c') ∧
          m.remaining ⟨entered, node⟩ = (key, v) :: m.remaining c' := by
    simp only [remaining, hnode, List.nil_append]
    cases hb : nextBucket entered (m.buckets.drop entered) with
    | none => exact .inl ⟨hnext.trans hb, nextBucket_eq_none hb⟩
    | some r =>
      obtain ⟨key, c'⟩ := r
      obtain ⟨n, v, b, rest, hdrop, rfl⟩ := nextBucket_eq_some hb
      refine .inr ⟨key, v, _, hnext.trans hb, ?_⟩
      have hskip : m.buckets.drop (entered + n + 1) = rest := by
        rw [Nat.add_assoc, ← List.drop_drop, hdrop, List.drop_append]
        simp
      rw [hskip, hdrop]
      simp
  match node with
  | [] => exact hbucket rfl rfl
  | [p] => exact hbucket rfl rfl
  | _ :: p :: b => exact .inr ⟨p.1, p.2, _, rfl, rfl⟩

/-- A walk that has left nothing behind it: it stands at the first node of the table. -/
structure AtFirst (m : HashMap hash α) (key : κ) (c : Cursor κ α) : Prop where
  node : ∃ v b, c.node = (key, v) :: b
  buckets : ∃ n rest, m.buckets = List.replicate n [] ++ c.node :: rest ∧ c.entered = n + 1

omit [DecidableEq κ] in
theorem nextBucket_atFirst {m : HashMap hash α} {entered : Nat} {key : κ} {c : Cursor κ α}
    (hempty : m.buckets.take entered = List.replicate entered [])
    (h : nextBucket entered (m.buckets.drop entered) = some (key, c)) : m.AtFirst key c := by
  obtain ⟨n, v, b, rest, hdrop, rfl⟩ := nextBucket_eq_some h
  refine ⟨⟨v, b, rfl⟩, entered + n, rest, ?_, rfl⟩
  rw [← List.take_append_drop entered m.buckets, hempty, hdrop, ← List.append_assoc,
    List.replicate_append_replicate]

omit [DecidableEq κ] in
/-- The first node of a walk. -/
theorem next_iter (m : HashMap hash α) :
    (m.next (iter κ α) = none ∧ m.entries = []) ∨
      ∃ key c, m.next (iter κ α) = some (key, c) ∧ m.AtFirst key c := by
  cases h : m.next (iter κ α) with
  | none => exact .inl ⟨rfl, nextBucket_eq_none h⟩
  | some r =>
    have hnone : m.buckets.take 0 = List.replicate 0 [] := rfl
    exact .inr ⟨r.1, r.2, rfl, nextBucket_atFirst hnone h⟩

theorem AtFirst.remove_buckets {m : HashMap hash α} {key : κ} {c : Cursor κ α}
    (h : m.AtFirst key c) :
    ∃ n rest, m.buckets = List.replicate n [] ++ c.node :: rest ∧ c.entered = n + 1 ∧
      (m.remove key).buckets = List.replicate n [] ++ c.node.tail :: rest := by
  obtain ⟨⟨v, b, hnode⟩, n, rest, hbuckets, hentered⟩ := h
  refine ⟨n, rest, hbuckets, hentered, ?_⟩
  have hidx : bucketIdx hash m.buckets.length key = n := by
    refine m.placed.idx (b := c.node) ?_ (key, v) (hnode ▸ List.mem_cons_self)
    rw [hbuckets, List.getElem?_append_right (by simp)]
    simp
  have hmodify : (m.remove key).buckets =
      m.buckets.modify (bucketIdx hash m.buckets.length key) (·.eraseP fun p => p.1 = key) := rfl
  rw [hmodify, hidx, hbuckets, List.modify_eq_take_drop, List.take_append, List.drop_append]
  simp [hnode]

/-- The walk stands at a node of the table. -/
theorem AtFirst.get {m : HashMap hash α} {key : κ} {c : Cursor κ α} (h : m.AtFirst key c) :
    ∃ v, m.get key = some v := by
  obtain ⟨⟨v, b, hnode⟩, n, rest, hbuckets, -⟩ := h
  refine ⟨v, mem_entries.mp ?_⟩
  rw [entries, hbuckets, hnode]
  simp

/-- Taking the first node out leaves one entry less. -/
theorem AtFirst.length_remove {m : HashMap hash α} {key : κ} {c : Cursor κ α}
    (h : m.AtFirst key c) : (m.remove key).entries.length + 1 = m.entries.length := by
  obtain ⟨n, rest, hbuckets, -, hremove⟩ := h.remove_buckets
  obtain ⟨v, b, hnode⟩ := h.node
  rw [entries, entries, hbuckets, hremove, hnode]
  simp

/-- Moving on and then taking the node out that was left. -/
theorem AtFirst.next {m : HashMap hash α} {key : κ} {c : Cursor κ α} (h : m.AtFirst key c) :
    (m.next c = none ∧ (m.remove key).entries = []) ∨
      ∃ key' c', m.next c = some (key', c') ∧ (m.remove key).AtFirst key' c' := by
  obtain ⟨n, rest, hbuckets, hentered, hremove⟩ := h.remove_buckets
  obtain ⟨v, b, hnode⟩ := h.node
  obtain ⟨entered, node⟩ := c
  obtain rfl : entered = n + 1 := hentered
  obtain rfl : node = (key, v) :: b := hnode
  have hdrop : m.buckets.drop (n + 1) = rest := by
    rw [hbuckets, List.drop_append]
    simp
  cases b with
  | cons p b =>
    refine .inr ⟨p.1, _, rfl, ⟨p.2, b, rfl⟩, n, rest, hremove, rfl⟩
  | nil =>
    have hnext : m.next ⟨n + 1, [(key, v)]⟩ = nextBucket (n + 1) rest := by
      rw [← hdrop]
      rfl
    rw [hnext]
    have hrest : (m.remove key).buckets.drop (n + 1) = rest := by
      rw [hremove, List.drop_append]
      simp
    have htake : (m.remove key).buckets.take (n + 1) = List.replicate (n + 1) [] := by
      rw [hremove, List.take_append]
      simp [List.replicate_succ']
    cases hb : nextBucket (n + 1) rest with
    | none =>
      refine .inl ⟨rfl, ?_⟩
      rw [entries, hremove]
      simpa using nextBucket_eq_none hb
    | some r =>
      exact .inr ⟨r.1, r.2, rfl, nextBucket_atFirst htake (hrest.symm ▸ hb)⟩

end HashMap

end CLib
