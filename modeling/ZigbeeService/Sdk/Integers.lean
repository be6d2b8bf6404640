-- SUMMARY: The integer types: the numbers they hold, and their members of a result.
import ZigbeeService.Lib.Arith
import ZigbeeService.Rest.Read

/-!
# Integer types

Each integer type has a member of one to eight bytes in a result, read with or without a sign.
-/

namespace Zigbee

open CLib

namespace PropertyType

/-- The bytes of a number of the type. -/
def size : PropertyType → Nat
  | .uint8 | .int8 => 1
  | .uint16 | .int16 => 2
  | .uint32 | .int32 => 4
  | .uint64 | .int64 => 8
  | _ => 0

def isSigned : PropertyType → Bool
  | .int8 | .int16 | .int32 | .int64 => true
  | _ => false

/-- The numbers of an integer type. -/
def Holds (t : PropertyType) (x : Int) : Prop :=
  if t.isSigned then -2 ^ (8 * t.size - 1) ≤ x ∧ x < 2 ^ (8 * t.size - 1)
  else 0 ≤ x ∧ x < 2 ^ (8 * t.size)

instance (t : PropertyType) (x : Int) : Decidable (t.Holds x) :=
  inferInstanceAs (Decidable (if t.isSigned then
      -2 ^ (8 * t.size - 1) ≤ x ∧ x < 2 ^ (8 * t.size - 1)
    else 0 ≤ x ∧ x < 2 ^ (8 * t.size)))

/-- The number that a result of the type stands for. -/
def reading (t : PropertyType) (v : ResultValue) : Int :=
  if t.isSigned then toSigned (8 * t.size) (v.load t.size) else v.load t.size

variable {t : PropertyType} {v : ResultValue} {x : Int}

theorem size_le (t : PropertyType) : t.size ≤ 8 := by
  cases t <;> decide

theorem size_pos (ht : t.isInteger = true) : 0 < t.size := by
  cases t <;> first | decide | cases ht

theorem pow_size (t : PropertyType) : (256 : Int) ^ t.size = 2 ^ (8 * t.size) := by
  rw [pow_mul]
  norm_num

theorem holds_reading (ht : t.isInteger = true) (v : ResultValue) : t.Holds (t.reading v) := by
  have hpos := size_pos ht
  unfold Holds reading
  split
  · exact toSigned_bounds (by omega) _
  · have hlt : v.load t.size < 256 ^ t.size := Nat.mod_lt _ (by positivity)
    rw [← pow_size]
    exact ⟨Int.natCast_nonneg _, by exact_mod_cast hlt⟩

/-- What is read depends on the number's low bytes only. -/
theorem reading_emod (v : ResultValue) : t.reading v % 256 ^ t.size = v.load t.size := by
  have hlt : v.load t.size < 256 ^ t.size := Nat.mod_lt _ (by positivity)
  have hself : (v.load t.size : Int) % 256 ^ t.size = v.load t.size :=
    Int.emod_eq_of_lt (Int.natCast_nonneg _) (by exact_mod_cast hlt)
  unfold reading
  split
  · have hmod : ((2 ^ (8 * t.size) : Nat) : Int) = 256 ^ t.size := by rw [pow_size]; push_cast; rfl
    rw [toSigned, ← hmod, Int.bmod_emod, hmod, hself]
  · exact hself

/-- A stored number is read back. -/
theorem reading_store (ht : t.isInteger = true) (hx : t.Holds x) (v : ResultValue) :
    t.reading (v.store t.size x) = x := by
  have hpos := size_pos ht
  have hload : ((v.store t.size x).load t.size : Int) = x % 256 ^ t.size := by
    rw [ResultValue.load_store v (size_le t),
      Int.toNat_of_nonneg (Int.emod_nonneg x (by positivity))]
  unfold Holds at hx
  unfold reading
  split
  · next hsigned =>
    rw [if_pos hsigned] at hx
    have hmod : ((2 ^ (8 * t.size) : Nat) : Int) = 256 ^ t.size := by rw [pow_size]; push_cast; rfl
    rw [hload, toSigned, ← hmod, Int.emod_bmod]
    exact toSigned_eq_self (by omega) hx.1 hx.2
  · next hsigned =>
    rw [if_neg hsigned, ← pow_size] at hx
    rw [hload, Int.emod_eq_of_lt hx.1 hx.2]

/-- Storing what is read changes nothing. -/
theorem store_reading (v : ResultValue) : v.store t.size (t.reading v) = v := by
  have hsame : t.reading v % 256 ^ t.size = (v.load t.size : Int) % 256 ^ t.size := by
    rw [← reading_emod v, Int.emod_emod]
  rw [ResultValue.store_congr v hsame, ResultValue.store_load_self v (size_le t)]

/-- All types but one fit the accumulator. -/
theorem Holds.inLongLong (ht : t.isInteger = true) (hx : t.Holds x) (hlt : x < 2 ^ 63) :
    inLongLong x := by
  refine ⟨?_, hlt⟩
  unfold Holds at hx
  cases t with
  | bool | string | binary | float32 | float64 => cases ht
  | uint8 | uint16 | uint32 | uint64 | int8 | int16 | int32 | int64 =>
    norm_num [isSigned, size] at hx
    omega

theorem Holds.lt (hx : t.Holds x) (hne : t ≠ .uint64) : x < 2 ^ 63 := by
  unfold Holds at hx
  cases t with
  | uint64 => exact absurd rfl hne
  | bool | string | binary | float32 | float64 | uint8 | uint16 | uint32 | int8 | int16 | int32
  | int64 =>
    norm_num [isSigned, size] at hx
    omega

end PropertyType

end Zigbee
