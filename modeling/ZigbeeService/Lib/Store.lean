-- SUMMARY: Stores of objects that are allocated once, used while they live, and freed once.
import ZigbeeService.Lib.Fault
import ZigbeeService.Lib.AssocList

/-!
# Object stores

The address of an object is the number of objects allocated before it; it is not used again after a
`free`, so an access through a pointer that outlived its object is always seen.
-/

namespace CLib

/-- The address of an object. -/
abbrev ObjAddr := Nat

/-- The objects by address. A freed one is `none`. -/
structure Store (α : Type) where
  cells : List (Option α)

namespace Store

variable {α : Type}

/-- Nothing allocated yet. -/
def empty : Store α := ⟨[]⟩

/-- The next address. -/
def size (st : Store α) : ObjAddr := st.cells.length

/-- The object at an address, while it lives. -/
def find? (st : Store α) (a : ObjAddr) : Option α := st.cells[a]?.join

/-- A new object, at the address `st.size`. -/
def alloc (st : Store α) (v : α) : Store α := ⟨st.cells ++ [some v]⟩

/-- Overwrite an object. -/
def write (st : Store α) (a : ObjAddr) (v : α) : Store α := ⟨st.cells.set a (some v)⟩

/-- Give an object back. -/
def free (st : Store α) (a : ObjAddr) : Store α := ⟨st.cells.set a none⟩

/-- Follow a pointer. -/
def read (st : Store α) (a : ObjAddr) : Checked α :=
  match st.find? a with
  | none => .error .danglingPointer
  | some v => .ok v

variable {st : Store α} {a b : ObjAddr} {v w : α}

theorem read_eq_ok : st.read a = .ok v ↔ st.find? a = some v := by
  rw [read]
  split
  · next h => simp [h]
  · next h => simp [h]

theorem lt_size (h : st.find? a = some v) : a < st.size := by
  apply Nat.lt_of_not_le
  intro hle
  rw [find?, List.getElem?_eq_none hle] at h
  cases h

@[simp] theorem find?_size : st.find? st.size = none := by
  rw [find?, size, List.getElem?_eq_none (Nat.le_refl _)]
  rfl

@[simp] theorem size_alloc : (st.alloc v).size = st.size + 1 := by simp [alloc, size]

@[simp] theorem size_write : (st.write a v).size = st.size := by simp [write, size]

@[simp] theorem size_free : (st.free a).size = st.size := by simp [free, size]

theorem find?_alloc : (st.alloc v).find? a = if a = st.size then some v else st.find? a := by
  unfold find? alloc size
  by_cases ha : a = st.cells.length
  · subst ha
    simp
  · rw [if_neg ha]
    by_cases hlt : a < st.cells.length
    · rw [List.getElem?_append_left hlt]
    · have hle : st.cells.length ≤ a := Nat.le_of_not_lt hlt
      have hgt : st.cells.length < a := Nat.lt_of_le_of_ne hle fun h => ha h.symm
      have hlen : (st.cells ++ [some v]).length ≤ a := by
        rw [List.length_append]
        exact hgt
      rw [List.getElem?_eq_none hlen, List.getElem?_eq_none hle]

/-- An allocation is not seen through the addresses in use. -/
theorem find?_alloc_of_some (h : st.find? a = some w) : (st.alloc v).find? a = some w := by
  rw [find?_alloc, if_neg (Nat.ne_of_lt (lt_size h)), h]

theorem find?_write (h : st.find? a = some w) :
    (st.write a v).find? b = if b = a then some v else st.find? b := by
  have hlt : a < st.cells.length := lt_size h
  unfold find? write
  rw [List.getElem?_set]
  by_cases hb : b = a
  · subst hb
    simp [hlt]
  · rw [if_neg fun heq => hb heq.symm, if_neg hb]

theorem find?_free : (st.free a).find? b = if b = a then none else st.find? b := by
  unfold find? free
  rw [List.getElem?_set]
  by_cases hb : b = a
  · subst hb
    simp
    split <;> rfl
  · rw [if_neg fun heq => hb heq.symm, if_neg hb]

end Store

end CLib
