-- SUMMARY: Exact reference counts: every object lives as long as references are owed to it, and counts them.
import ZigbeeService.Lib.Store

/-!
# Reference counts

`owed a` is how many references to the object at `a` there are. A count is exact when a living object
counts the references owed to it, at least one, and none are owed to an object that was freed. Each
rule says how the count and the references must move together.
-/

namespace CLib

variable {α : Type}

/-- The objects count the references that are owed to them, and live while there are any. -/
structure RefsExact (refs : α → Nat) (st : Store α) (owed : ObjAddr → Nat) : Prop where
  count : ∀ {a v}, st.find? a = some v → refs v = owed a ∧ 0 < owed a
  gone : ∀ {a}, st.find? a = none → owed a = 0

namespace RefsExact

variable {refs : α → Nat} {st : Store α} {owed owed' : ObjAddr → Nat} {a : ObjAddr} {v w : α}

theorem empty : RefsExact refs Store.empty fun _ => 0 where
  count h := by cases h
  gone _ := rfl

/-- Only what is owed matters. -/
theorem congr (h : RefsExact refs st owed) (howed : ∀ b, owed' b = owed b) :
    RefsExact refs st owed' := by
  obtain rfl : owed' = owed := funext howed
  exact h

/-- Whoever is owed a reference can follow it. -/
theorem live (h : RefsExact refs st owed) (ha : 0 < owed a) : ∃ v, st.find? a = some v := by
  cases hv : st.find? a with
  | some v => exact ⟨v, rfl⟩
  | none => exact absurd (h.gone hv) (Nat.ne_of_gt ha)

/-- A new object with one reference to it. -/
theorem alloc (h : RefsExact refs st owed) (hv : refs v = 1)
    (howed : ∀ b, owed' b = if b = st.size then 1 else owed b) :
    RefsExact refs (st.alloc v) owed' where
  count := by
    intro b u hb
    rw [Store.find?_alloc] at hb
    rw [howed]
    split at hb
    · next heq =>
      cases hb
      rw [if_pos heq]
      exact ⟨hv, Nat.one_pos⟩
    · next hne =>
      rw [if_neg hne]
      exact h.count hb
  gone := by
    intro b hb
    rw [Store.find?_alloc] at hb
    rw [howed]
    split at hb
    · cases hb
    · next hne =>
      rw [if_neg hne]
      exact h.gone hb

/-- A change that moves the count as the references move. -/
theorem write (h : RefsExact refs st owed) (hv : st.find? a = some v)
    (hw : refs w = owed' a ∧ 0 < owed' a) (howed : ∀ b, b ≠ a → owed' b = owed b) :
    RefsExact refs (st.write a w) owed' where
  count := by
    intro b u hb
    rw [Store.find?_write hv] at hb
    split at hb
    · next heq =>
      cases hb
      rw [heq]
      exact hw
    · next hne =>
      rw [howed b hne]
      exact h.count hb
  gone := by
    intro b hb
    rw [Store.find?_write hv] at hb
    split at hb
    · cases hb
    · next hne =>
      rw [howed b hne]
      exact h.gone hb

/-- Freeing an object when the last reference goes. -/
theorem free (h : RefsExact refs st owed) (ha : owed' a = 0)
    (howed : ∀ b, b ≠ a → owed' b = owed b) : RefsExact refs (st.free a) owed' where
  count := by
    intro b u hb
    rw [Store.find?_free] at hb
    split at hb
    · cases hb
    · next hne =>
      rw [howed b hne]
      exact h.count hb
  gone := by
    intro b hb
    rw [Store.find?_free] at hb
    split at hb
    · next heq => rw [heq, ha]
    · next hne =>
      rw [howed b hne]
      exact h.gone hb

end RefsExact

/-! ## What happens to freed objects -/

/-- No address is taken back, and a freed object stays freed. -/
structure Store.Ages (st st' : Store α) : Prop where
  size : st.size ≤ st'.size
  freed : ∀ {a}, a < st.size → st.find? a = none → st'.find? a = none

namespace Store.Ages

variable {st st' st'' : Store α} {a : ObjAddr} {v : α}

theorem refl (st : Store α) : st.Ages st := ⟨Nat.le_refl _, fun _ h => h⟩

theorem trans (h : st.Ages st') (h' : st'.Ages st'') : st.Ages st'' where
  size := Nat.le_trans h.size h'.size
  freed ha hnone := h'.freed (Nat.lt_of_lt_of_le ha h.size) (h.freed ha hnone)

theorem alloc (st : Store α) (v : α) : st.Ages (st.alloc v) where
  size := by
    rw [size_alloc]
    exact Nat.le_succ _
  freed := by
    intro a ha hnone
    rw [find?_alloc, if_neg (Nat.ne_of_lt ha), hnone]

theorem write {w : α} (hv : st.find? a = some v) : st.Ages (st.write a w) where
  size := Nat.le_of_eq size_write.symm
  freed := by
    intro b _ hnone
    rw [find?_write hv, if_neg, hnone]
    rintro rfl
    rw [hv] at hnone
    cases hnone

theorem free (st : Store α) (a : ObjAddr) : st.Ages (st.free a) where
  size := Nat.le_of_eq size_free.symm
  freed := by
    intro b _ hnone
    rw [find?_free]
    split
    · rfl
    · exact hnone

end Store.Ages

/-! ## Computations that follow pointers -/

/-- The computation does not follow a pointer to a freed object. -/
def NoDangling (x : Checked α) : Prop := x ≠ .error .danglingPointer

namespace NoDangling

theorem ok (a : α) : NoDangling (.ok a) := nofun

theorem null : NoDangling (.error .nullPointer : Checked α) := nofun

theorem read {st : Store α} {a : ObjAddr} {v : α} (h : st.find? a = some v) :
    NoDangling (st.read a) := by
  rw [Store.read_eq_ok.mpr h]
  exact ok v

theorem bind {β : Type} {x : Checked α} {f : α → Checked β} (hx : NoDangling x)
    (hf : ∀ a, x = .ok a → NoDangling (f a)) : NoDangling (x >>= f) := by
  cases x with
  | ok a => exact hf a rfl
  | error e =>
    intro h
    rw [Checked.error_bind, Except.error.injEq] at h
    exact hx (congrArg Except.error h)

end NoDangling

end CLib
