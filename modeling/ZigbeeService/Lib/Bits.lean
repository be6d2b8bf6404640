-- SUMMARY: The bits of a number, the most significant first.
import Mathlib.Data.Nat.Bitwise
import Mathlib.Data.List.Flatten
import Mathlib.Tactic.Common

/-!
# Bits

A number of a given width as a list of bits. A number that was put together by shifts is the
concatenation of its parts.
-/

namespace CLib

/-- The `w` low bits of a number, the most significant first. -/
def bits : Nat → Nat → List Bool
  | 0, _ => []
  | w + 1, n => n.testBit w :: bits w n

@[simp] theorem length_bits (w n : Nat) : (bits w n).length = w := by
  induction w with
  | zero => rfl
  | succ w ih => rw [bits, List.length_cons, ih]

/-- Only the low bits count. -/
theorem bits_congr {w m n : Nat} (h : ∀ i < w, m.testBit i = n.testBit i) :
    bits w m = bits w n := by
  induction w with
  | zero => rfl
  | succ w ih =>
    rw [bits, bits, h w (Nat.lt_succ_self w), ih fun i hi => h i (Nat.lt_succ_of_lt hi)]

theorem bits_mod (w n : Nat) : bits w (n % 2 ^ w) = bits w n :=
  bits_congr fun i hi => by rw [Nat.testBit_mod_two_pow, decide_eq_true hi, Bool.true_and]

/-- The high bits stand in front of the low ones. -/
theorem bits_add (a b n : Nat) : bits (a + b) n = bits a (n >>> b) ++ bits b n := by
  induction a with
  | zero => rw [Nat.zero_add, bits, List.nil_append]
  | succ a ih =>
    rw [Nat.succ_add, bits, bits, ih, Nat.testBit_shiftRight, Nat.add_comm b a, List.cons_append]

/-- Bits that are shifted in stand behind the others. -/
theorem bits_shiftLeft_add {d k : Nat} (hd : d < 2 ^ k) (a n : Nat) :
    bits (a + k) (n <<< k + d) = bits a n ++ bits k d := by
  have hhigh : (n <<< k + d) >>> k = n := by
    rw [Nat.shiftLeft_eq, Nat.shiftRight_eq_div_pow, Nat.mul_comm,
      Nat.mul_add_div (Nat.two_pow_pos k), Nat.div_eq_of_lt hd, Nat.add_zero]
  have hlow : (n <<< k + d) % 2 ^ k = d := by
    rw [Nat.shiftLeft_eq, Nat.mul_comm, Nat.mul_add_mod, Nat.mod_eq_of_lt hd]
  rw [bits_add, hhigh, ← bits_mod k (n <<< k + d), hlow]

/-- The bits of bytes in a row. -/
def byteBits (bytes : List UInt8) : List Bool := bytes.flatMap fun b => bits 8 b.toNat

theorem byteBits_append (bs cs : List UInt8) : byteBits (bs ++ cs) = byteBits bs ++ byteBits cs :=
  List.flatMap_append

theorem length_byteBits (bs : List UInt8) : (byteBits bs).length = 8 * bs.length := by
  induction bs with
  | nil => rfl
  | cons b bs ih =>
    rw [byteBits, List.flatMap_cons, List.length_append, length_bits, List.length_cons,
      ← byteBits, ih]
    omega

/-- A byte keeps the low bits of what is stored in it. -/
theorem byteBits_singleton (n : Nat) : byteBits [UInt8.ofNat n] = bits 8 n := by
  rw [byteBits, List.flatMap_cons, List.flatMap_nil, List.append_nil, UInt8.toNat_ofNat']
  exact bits_mod 8 n

end CLib
