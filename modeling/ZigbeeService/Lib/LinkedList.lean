-- SUMMARY: Finite heaps of list nodes, and the shape of a singly linked list with a front and a rear pointer.
import Mathlib.Data.Finmap
import Mathlib.Data.List.Nodup
import Mathlib.Order.Lattice.Nat

/-!
# Singly linked lists in a heap

`IsList h front rear ns` says that the nodes `ns`, given with their addresses, are exactly what is
reached from `front` by following `next`, and that `rear` is the address of the last of them. The
rules below are the three things a queue does with such a list: take the first node off, start a
list, and link one more node to the end.
-/

namespace LinkedList

/-- Addresses other than the null pointer, which is `none`. -/
abbrev Addr := Nat

structure Node (α : Type*) where
  val : α
  next : Option Addr
  deriving DecidableEq

/-- The allocated nodes by address. -/
abbrev Heap (α : Type*) := Finmap fun _ : Addr => Node α

/-- An allocator: any choice of an address that is not in use. -/
structure Malloc (α : Type*) where
  pick : Heap α → Addr
  fresh : ∀ h, pick h ∉ h

/-- The allocator that takes the address above all those in use. -/
def Malloc.bump (α : Type*) : Malloc α where
  pick h := h.keys.sup id + 1
  fresh _ hmem := Nat.not_succ_le_self _ (Finset.le_sup (f := id) (Finmap.mem_keys.mpr hmem))

variable {α : Type*}

/-- The nodes reached from `p` are `ns`, and the last of them has no successor. -/
def Chain (h : Heap α) : Option Addr → List (Addr × α) → Prop
  | p, [] => p = none
  | p, (a, v) :: ns => p = some a ∧ ∃ next, h.lookup a = some ⟨v, next⟩ ∧ Chain h next ns

@[simp] theorem Chain.nil_iff {h : Heap α} {p : Option Addr} : Chain h p [] ↔ p = none := Iff.rfl

theorem Chain.cons_iff {h : Heap α} {p : Option Addr} {a : Addr} {v : α} {ns : List (Addr × α)} :
    Chain h p ((a, v) :: ns) ↔
      p = some a ∧ ∃ next, h.lookup a = some ⟨v, next⟩ ∧ Chain h next ns := Iff.rfl

/-- A chain only depends on its own nodes. -/
theorem Chain.frame {h h' : Heap α} {p : Option Addr} {ns : List (Addr × α)} (hc : Chain h p ns)
    (hagree : ∀ a ∈ ns.map Prod.fst, h'.lookup a = h.lookup a) : Chain h' p ns := by
  induction ns generalizing p with
  | nil => exact hc
  | cons n ns ih =>
    obtain ⟨rfl, next, hlook, hrest⟩ := Chain.cons_iff.mp hc
    rw [List.map_cons, List.forall_mem_cons] at hagree
    exact ⟨rfl, next, hagree.1.trans hlook, ih hrest hagree.2⟩

theorem Chain.mem_heap {h : Heap α} {p : Option Addr} {ns : List (Addr × α)} (hc : Chain h p ns)
    {a : Addr} (ha : a ∈ ns.map Prod.fst) : a ∈ h := by
  induction ns generalizing p with
  | nil => simp at ha
  | cons n ns ih =>
    obtain ⟨rfl, next, hlook, hrest⟩ := Chain.cons_iff.mp hc
    rcases List.mem_cons.mp ha with rfl | ha
    · exact Finmap.mem_of_lookup_eq_some hlook
    · exact ih hrest ha

/-- Linking a node `t` behind the last node `r` of a chain. -/
theorem Chain.snoc {h : Heap α} {p : Option Addr} {ns : List (Addr × α)} {r t : Addr} {v w : α}
    (hc : Chain h p (ns ++ [(r, v)])) (hnd : ((ns ++ [(r, v)]).map Prod.fst).Nodup)
    (ht : t ≠ r) (htlook : h.lookup t = some ⟨w, none⟩) :
    h.lookup r = some ⟨v, none⟩ ∧
      Chain (h.insert r ⟨v, some t⟩) p (ns ++ [(r, v), (t, w)]) := by
  induction ns generalizing p with
  | nil =>
    obtain ⟨rfl, next, hlook, hnil⟩ := Chain.cons_iff.mp hc
    obtain rfl : next = none := hnil
    refine ⟨hlook, rfl, some t, Finmap.lookup_insert _, rfl, none, ?_, rfl⟩
    rw [Finmap.lookup_insert_of_ne _ ht, htlook]
  | cons n ns ih =>
    obtain ⟨a, u⟩ := n
    obtain ⟨rfl, next, hlook, hrest⟩ := Chain.cons_iff.mp hc
    simp only [List.cons_append, List.map_cons, List.nodup_cons] at hnd
    obtain ⟨hr, hchain⟩ := ih hrest hnd.2
    have har : a ≠ r := by rintro rfl; simp at hnd
    exact ⟨hr, rfl, next, by rw [Finmap.lookup_insert_of_ne _ har, hlook], hchain⟩

/-! ## Lists with a front and a rear pointer -/

/-- `ns` is the list between `front` and `rear`. -/
structure IsList (h : Heap α) (front rear : Option Addr) (ns : List (Addr × α)) : Prop where
  chain : Chain h front ns
  nodup : (ns.map Prod.fst).Nodup
  rear_eq : rear = ns.getLast?.map Prod.fst

namespace IsList

variable {h : Heap α} {front rear : Option Addr} {ns : List (Addr × α)}

theorem empty : IsList h none none ([] : List (Addr × α)) := ⟨rfl, List.nodup_nil, rfl⟩

theorem front_eq_none_iff (hl : IsList h front rear ns) : front = none ↔ ns = [] := by
  cases ns with
  | nil => simpa using hl.chain
  | cons n ns => simp [(Chain.cons_iff.mp hl.chain).1]

theorem rear_eq_none_iff (hl : IsList h front rear ns) : rear = none ↔ ns = [] := by
  simp [hl.rear_eq]

/-- Allocating an unrelated node keeps the list. -/
theorem insert_fresh (hl : IsList h front rear ns) {t : Addr} (ht : t ∉ h) (n : Node α) :
    IsList (h.insert t n) front rear ns where
  chain := hl.chain.frame fun _ ha =>
    Finmap.lookup_insert_of_ne _ fun hat => ht (hat ▸ hl.chain.mem_heap ha)
  nodup := hl.nodup
  rear_eq := hl.rear_eq

/-- Taking the first node off: the front moves on, and a list that becomes empty loses its rear. -/
theorem pop {a : Addr} {v : α} (hl : IsList h front rear ((a, v) :: ns)) :
    front = some a ∧ ∃ next, h.lookup a = some ⟨v, next⟩ ∧
      IsList (h.erase a) next (if next = none then none else rear) ns := by
  obtain ⟨rfl, next, hlook, hrest⟩ := Chain.cons_iff.mp hl.chain
  have hnd := hl.nodup
  rw [List.map_cons, List.nodup_cons] at hnd
  refine ⟨rfl, next, hlook, ?_, hnd.2, ?_⟩
  · exact hrest.frame fun b hb => Finmap.lookup_erase_ne fun hba => hnd.1 (hba ▸ hb)
  · cases ns with
    | nil => simp [Chain.nil_iff.mp hrest]
    | cons n ns => simp [(Chain.cons_iff.mp hrest).1, hl.rear_eq]

/-- The first node of an empty list. -/
theorem push_empty {t : Addr} {w : α} (ht : h.lookup t = some ⟨w, none⟩) :
    IsList h (some t) (some t) [(t, w)] :=
  ⟨⟨rfl, none, ht, rfl⟩, by simp, rfl⟩

/-- One more node behind the rear. -/
theorem push {r t : Addr} {w : α} (hl : IsList h front (some r) ns) (ht : t ∉ ns.map Prod.fst)
    (htlook : h.lookup t = some ⟨w, none⟩) :
    ∃ n, h.lookup r = some n ∧
      IsList (h.insert r { n with next := some t }) front (some t) (ns ++ [(t, w)]) := by
  have hne : ns ≠ [] := by
    rintro rfl
    simpa using hl.rear_eq
  obtain ⟨ms, ⟨r', v⟩, rfl⟩ := List.eq_nil_or_concat' ns |>.resolve_left hne
  obtain rfl : r = r' := by simpa using hl.rear_eq
  have htr : t ≠ r := by rintro rfl; simp at ht
  obtain ⟨hr, hchain⟩ := hl.chain.snoc hl.nodup htr htlook
  refine ⟨⟨v, none⟩, hr, ?_, ?_, by simp⟩
  · simpa using hchain
  · rw [List.map_append, List.map_singleton]
    exact List.Nodup.append hl.nodup (List.nodup_singleton _) (by simpa using ht)

end IsList

end LinkedList
