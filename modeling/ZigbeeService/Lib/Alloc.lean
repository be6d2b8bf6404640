-- SUMMARY: Programs that allocate and free blocks, and the rules of triples that say which blocks they own.
import Mathlib.Algebra.Order.Group.Multiset
import ZigbeeService.Lib.Fault

/-!
# Allocation

A heap is the blocks that were allocated and not freed. An address is not used twice, so a free or a
read of a block that was freed before is seen. A triple names the blocks that a program starts with
and those that it ends with; whatever other blocks there are, it leaves them alone.
-/

namespace CLib

/-- The blocks that live, and the address of the next one. -/
structure Heap where
  live : Multiset Nat
  next : Nat
  lt_next : ∀ a ∈ live, a < next
  nodup : live.Nodup

/-- Nothing was allocated. -/
def Heap.empty : Heap := ⟨0, 0, fun _ ha => absurd ha (Multiset.notMem_zero _), Multiset.nodup_zero⟩

/-- A program with a heap. -/
abbrev Alloc := StateT Heap Checked

namespace Alloc

variable {α β : Type}

/-- A pointer to a block, or NULL. -/
abbrev Ptr := Option Nat

/-- `malloc`, which does not fail. -/
def malloc : Alloc Nat := fun h =>
  .ok (h.next, {
    live := h.next ::ₘ h.live
    next := h.next + 1
    lt_next := fun a ha => by
      rcases Multiset.mem_cons.mp ha with rfl | ha
      · exact Nat.lt_succ_self _
      · exact Nat.lt_succ_of_lt (h.lt_next a ha)
    nodup := Multiset.nodup_cons.mpr ⟨fun ha => Nat.lt_irrefl _ (h.lt_next _ ha), h.nodup⟩ })

/-- `free`. -/
def free : Ptr → Alloc Unit
  | none => pure ()
  | some a => fun h =>
    if a ∈ h.live then
      .ok ((), {
        live := h.live.erase a
        next := h.next
        lt_next := fun b hb => h.lt_next b (Multiset.mem_of_mem_erase hb)
        nodup := h.nodup.erase a })
    else .error .danglingPointer

/-- The value of a field of the block at `a`. -/
def load (a : Nat) (field : α) : Alloc α := fun h =>
  if a ∈ h.live then .ok (field, h) else .error .danglingPointer

/-- A computation without a heap. -/
def ofChecked (x : Checked α) : Alloc α := fun h => x.map fun a => (a, h)

/-- The block that a pointer owns. -/
def block : Ptr → Multiset Nat
  | none => 0
  | some a => {a}

/-! ## Triples -/

/-- From the blocks `pre` the program returns, with blocks that `post` holds of. -/
def Triple (pre : Multiset Nat) (f : Alloc α) (post : α → Multiset Nat → Prop) : Prop :=
  ∀ h frame, h.live = pre + frame →
    ∃ r bs h', f h = .ok (r, h') ∧ post r bs ∧ h'.live = bs + frame

/-- The program makes the blocks of its result. -/
def Makes (f : Alloc α) (blocks : α → Multiset Nat) : Prop := Triple 0 f fun r bs => bs = blocks r

/-- The program frees these blocks. -/
def Frees (f : Alloc Unit) (pre : Multiset Nat) : Prop := Triple pre f fun _ bs => bs = 0

variable {pre pre' mid : Multiset Nat} {f : Alloc α} {g : α → Alloc β}
  {post post' : α → Multiset Nat → Prop}

theorem Triple.pure {r : α} (h : post r pre) : Triple pre (pure r) post :=
  fun s _ hlive => ⟨r, pre, s, rfl, h, hlive⟩

theorem Triple.bind {mid : α → Multiset Nat → Prop} {post : β → Multiset Nat → Prop}
    (hf : Triple pre f mid) (hg : ∀ r bs, mid r bs → Triple bs (g r) post) :
    Triple pre (f >>= g) post := by
  intro s frame hlive
  obtain ⟨r, bs, s', hr, hmid, hlive'⟩ := hf s frame hlive
  obtain ⟨r', bs', s'', hr', hpost, hlive''⟩ := hg r bs hmid s' frame hlive'
  refine ⟨r', bs', s'', ?_, hpost, hlive''⟩
  have hbind : (f >>= g) s = (f s >>= fun p => g p.1 p.2) := rfl
  rw [hbind, hr, Checked.ok_bind, hr']

/-- What is not named is left alone. -/
theorem Triple.frame (h : Triple pre f post) (others : Multiset Nat) :
    Triple (pre + others) f fun r bs => ∃ bs', post r bs' ∧ bs = bs' + others := by
  intro s frame hlive
  obtain ⟨r, bs, s', hr, hpost, hlive'⟩ := h s (others + frame) (by rw [hlive, add_assoc])
  exact ⟨r, bs + others, s', hr, ⟨bs, hpost, rfl⟩, by rw [hlive', add_assoc]⟩

theorem Triple.weaken (h : Triple pre f post) (hpost : ∀ r bs, post r bs → post' r bs) :
    Triple pre f post' := by
  intro s frame hlive
  obtain ⟨r, bs, s', hr, hbs, hlive'⟩ := h s frame hlive
  exact ⟨r, bs, s', hr, hpost r bs hbs, hlive'⟩

/-! ## Programs that make blocks -/

theorem makes_malloc : Makes malloc fun a => {a} := by
  intro s frame hlive
  refine ⟨s.next, {s.next}, _, rfl, rfl, ?_⟩
  rw [zero_add] at hlive
  rw [← hlive]
  rfl

/-- First make some blocks, then go on with them and those that are there. -/
theorem Triple.after {mid : α → Multiset Nat → Prop} {post : β → Multiset Nat → Prop}
    (hf : Triple 0 f mid) (hg : ∀ r bs, mid r bs → Triple (bs + pre) (g r) post) :
    Triple pre (f >>= g) post := by
  have hframe := Triple.frame hf pre
  rw [zero_add] at hframe
  refine hframe.bind fun r bs hbs => ?_
  obtain ⟨bs', hmid, rfl⟩ := hbs
  exact hg r bs' hmid

theorem Makes.bind {blocks : α → Multiset Nat} {post : β → Multiset Nat → Prop}
    (hf : Makes f blocks) (hg : ∀ r, Triple (blocks r + pre) (g r) post) :
    Triple pre (f >>= g) post :=
  Triple.after hf fun r _ hbs => hbs ▸ hg r

/-- A computation without a heap that returns. -/
theorem triple_ofChecked {x : Checked α} {r : α} (hx : x = .ok r) {post : β → Multiset Nat → Prop}
    (hg : Triple pre (g r) post) : Triple pre (ofChecked x >>= g) post := by
  subst hx
  exact hg

/-! ## Programs that free blocks -/

theorem frees_free (p : Ptr) : Frees (free p) (block p) := by
  intro s frame hlive
  cases p with
  | none => exact ⟨(), 0, s, rfl, rfl, hlive⟩
  | some a =>
    have hmem : a ∈ s.live := by
      rw [hlive]
      exact Multiset.mem_add.mpr (.inl (Multiset.mem_singleton_self a))
    refine ⟨(), 0, _, if_pos hmem, rfl, ?_⟩
    dsimp only
    rw [hlive, block, Multiset.singleton_add, Multiset.erase_cons_head, zero_add]

theorem frees_pure : Frees (pure ()) 0 := Triple.pure rfl

/-- First free some blocks, then the others. -/
theorem Frees.bind {f : Alloc Unit} {g : Alloc β} {post : β → Multiset Nat → Prop}
    (hf : Frees f pre) (hg : Triple mid g post) : Triple (pre + mid) (f >>= fun _ => g) post := by
  refine (Triple.frame hf mid).bind fun r bs hbs => ?_
  obtain ⟨bs', rfl, rfl⟩ := hbs
  rwa [zero_add]

/-- A field can be read as long as its block is there. -/
theorem Triple.load {a : Nat} {field : α} {post : β → Multiset Nat → Prop} (ha : a ∈ pre)
    (hg : Triple pre (g field) post) : Triple pre (load a field >>= g) post := by
  intro s frame hlive
  have hmem : a ∈ s.live := by
    rw [hlive]
    exact Multiset.mem_add.mpr (.inl ha)
  obtain ⟨r, bs, s', hr, hpost, hlive'⟩ := hg s frame hlive
  refine ⟨r, bs, s', ?_, hpost, hlive'⟩
  have hbind : (Alloc.load a field >>= g) s = (Alloc.load a field s >>= fun p => g p.1 p.2) := rfl
  rw [hbind, Alloc.load, if_pos hmem, Checked.ok_bind, hr]

/-- Free what a field of a block points to, then the rest, in which the block is. -/
theorem Triple.field {a : Nat} {x : α} {f : α → Alloc Unit} {g : Alloc β}
    {post : β → Multiset Nat → Prop} (hf : Frees (f x) pre) (ha : a ∈ mid)
    (hg : Triple mid g post) :
    Triple (pre + mid) (Alloc.load a x >>= fun y => f y >>= fun _ => g) post :=
  Triple.load (Multiset.mem_add.mpr (.inr ha)) (hf.bind hg)

end Alloc

end CLib
