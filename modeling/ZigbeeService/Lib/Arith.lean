-- SUMMARY: Arithmetic of the C type long long, and the computations that meet undefined arithmetic.
import Mathlib.Data.Int.Bitwise
import Mathlib.Tactic.Linarith
import ZigbeeService.Lib.Number

/-!
# Signed arithmetic

A `long long` has 64 bits. An operation without a defined result says why. Where the standard leaves
a choice, it is GCC's: a right shift keeps the sign, a left shift drops the bits that do not fit.
-/

namespace CLib

/-- Why a computation has no defined result. -/
inductive Undefined where
  /-- An access to memory. -/
  | memory (fault : Fault)
  /-- A member of a union whose storage holds the pointer of another member. -/
  | pointerBits
  /-- A signed result outside its type. -/
  | overflow
  | divisionByZero
  /-- A shift by a negative count, or by the width of the type or more. -/
  | shiftCount
  /-- A floating value outside the integer type it is converted to. -/
  | conversion
  deriving DecidableEq, Repr

/-- A computation that returns a value or meets undefined arithmetic. -/
abbrev Defined := Except Undefined

namespace Defined

variable {α β : Type}

@[simp] theorem pure_eq (a : α) : (pure a : Defined α) = .ok a := rfl

@[simp] theorem ok_bind (a : α) (f : α → Defined β) : ((.ok a : Defined α) >>= f) = f a := rfl

@[simp] theorem error_bind (e : Undefined) (f : α → Defined β) :
    ((.error e : Defined α) >>= f) = .error e := rfl

/-- A sequence returns exactly when its first part returns and the rest does on its result. -/
theorem bind_eq_ok {x : Defined α} {f : α → Defined β} {b : β} :
    (x >>= f) = .ok b ↔ ∃ a, x = .ok a ∧ f a = .ok b := by
  cases x with
  | error e => simp
  | ok a => simp

/-- It does not fail in an access: neither to memory, nor to the storage of a pointer. -/
def Accesses (x : Defined α) : Prop := ∀ f, x ≠ .error (.memory f) ∧ x ≠ .error .pointerBits

theorem accesses_ok (a : α) : Accesses (.ok a : Defined α) := fun _ => ⟨nofun, nofun⟩

theorem Accesses.bind {x : Defined α} {f : α → Defined β} (hx : x.Accesses)
    (hf : ∀ a, x = .ok a → (f a).Accesses) : (x >>= f).Accesses := by
  cases x with
  | ok a => exact hf a rfl
  | error e =>
    intro fault
    obtain ⟨hmemory, hbits⟩ := hx fault
    constructor
    · rintro ⟨⟩
      exact hmemory rfl
    · rintro ⟨⟩
      exact hbits rfl

end Defined

/-! ## long long -/

/-- A `long long`. -/
def inLongLong (x : Int) : Prop := -2 ^ 63 ≤ x ∧ x < 2 ^ 63

instance (x : Int) : Decidable (inLongLong x) := inferInstanceAs (Decidable (_ ∧ _))

/-- The result of an operation, if it is a `long long`. -/
def llResult (x : Int) : Defined Int := if inLongLong x then .ok x else .error .overflow

def llAdd (x y : Int) : Defined Int := llResult (x + y)

def llSub (x y : Int) : Defined Int := llResult (x - y)

def llMul (x y : Int) : Defined Int := llResult (x * y)

def llNeg (x : Int) : Defined Int := llResult (-x)

/-- `x / y`, truncated. -/
def llDiv (x y : Int) : Defined Int :=
  if y = 0 then .error .divisionByZero else llResult (x.tdiv y)

/-- `x & y`. -/
def llAnd (x y : Int) : Int := (BitVec.ofInt 64 x &&& BitVec.ofInt 64 y).toInt

/-- `x << n`. -/
def llShiftLeft (x n : Int) : Defined Int :=
  if 0 ≤ n ∧ n < 64 then .ok (toSigned 64 (x * 2 ^ n.toNat)) else .error .shiftCount

/-- `x >> n`. -/
def llShiftRight (x n : Int) : Defined Int :=
  if 0 ≤ n ∧ n < 64 then .ok (x / 2 ^ n.toNat) else .error .shiftCount

/-! ## Exactness -/

theorem llResult_eq_ok {x y : Int} : llResult x = .ok y ↔ inLongLong x ∧ y = x := by
  unfold llResult
  split
  · next h => rw [Except.ok.injEq, eq_comm, and_iff_right h]
  · next h => exact ⟨nofun, fun hx => absurd hx.1 h⟩

theorem toSigned64_bounds (x : Int) : inLongLong (toSigned 64 x) := toSigned_bounds (by decide) x

theorem toSigned64_eq_iff {x : Int} : toSigned 64 x = x ↔ inLongLong x := by
  constructor
  · intro h
    rw [← h]
    exact toSigned64_bounds x
  · exact fun h => toSigned_eq_self (by decide) h.1 h.2

/-- The low bits of a product are those of the product of low bits. -/
theorem toSigned64_mul (x k : Int) : toSigned 64 (toSigned 64 x * k) = toSigned 64 (x * k) := by
  unfold toSigned
  exact Int.bmod_mul_bmod

theorem testBit_ofInt (w : Nat) (x : Int) (i : Nat) :
    (BitVec.ofInt w x).getLsbD i = (decide (i < w) && Int.testBit x i) := by
  cases x with
  | ofNat n =>
    rw [Int.ofNat_eq_natCast, BitVec.ofInt_natCast, BitVec.getLsbD_ofNat]
    rfl
  | negSucc n =>
    rw [BitVec.ofInt_negSucc_eq_not_ofNat, BitVec.getLsbD_not, BitVec.getLsbD_ofNat, Int.testBit]
    cases decide (i < w) <;> rfl

/-- The bits of a conjunction, whatever the width. -/
theorem ofInt_land (w : Nat) (x y : Int) :
    BitVec.ofInt w (Int.land x y) = BitVec.ofInt w x &&& BitVec.ofInt w y := by
  apply BitVec.eq_of_getLsbD_eq
  intro i hi
  rw [BitVec.getLsbD_and]
  simp only [testBit_ofInt, Int.testBit_land, hi, decide_true, Bool.true_and]

/-- Only the low bits of a masked number count. -/
theorem llAnd_toSigned (x y : Int) : llAnd (toSigned 64 x) y = toSigned 64 (Int.land x y) := by
  have hlow : BitVec.ofInt 64 (toSigned 64 x) = BitVec.ofInt 64 x := by
    apply BitVec.eq_of_toInt_eq
    rw [BitVec.toInt_ofInt, BitVec.toInt_ofInt]
    exact Int.bmod_bmod
  rw [llAnd, hlow, ← ofInt_land, BitVec.toInt_ofInt]
  rfl

/-- Clearing bits keeps a bound. -/
theorem ldiff_lt_two_pow {m k : Nat} (hm : m < 2 ^ k) (n : Nat) : Nat.ldiff m n < 2 ^ k := by
  refine Nat.lt_pow_two_of_testBit _ fun i hi => ?_
  have hclear : m.testBit i = false :=
    Nat.testBit_lt_two_pow (hm.trans_le (Nat.pow_le_pow_right (by decide) hi))
  rw [Nat.testBit_ldiff, hclear, Bool.false_and]

/-- A conjunction of numbers of the range is in the range. -/
theorem land_inLongLong {x y : Int} (hx : inLongLong x) (hy : inLongLong y) :
    inLongLong (Int.land x y) := by
  unfold inLongLong at *
  cases x with
  | ofNat m =>
    have hm : m < 2 ^ 63 := Int.ofNat_lt.mp hx.2
    cases y with
    | ofNat n =>
      have hlt : m &&& n < 2 ^ 63 := Nat.and_le_left.trans_lt hm
      rw [show Int.land (Int.ofNat m) (Int.ofNat n) = ((m &&& n : Nat) : Int) from rfl]
      omega
    | negSucc n =>
      have hlt := ldiff_lt_two_pow hm n
      rw [show Int.land (Int.ofNat m) (Int.negSucc n) = (Nat.ldiff m n : Int) from rfl]
      omega
  | negSucc m =>
    have hm : m < 2 ^ 63 := by omega
    cases y with
    | ofNat n =>
      have hlt := ldiff_lt_two_pow (Int.ofNat_lt.mp hy.2) m
      rw [show Int.land (Int.negSucc m) (Int.ofNat n) = (Nat.ldiff n m : Int) from rfl]
      omega
    | negSucc n =>
      have hlt : m ||| n < 2 ^ 63 := Nat.or_lt_two_pow hm (by omega)
      rw [show Int.land (Int.negSucc m) (Int.negSucc n) = Int.negSucc (m ||| n) from rfl]
      omega

theorem llShiftLeft_eq_ok {x n y : Int} :
    llShiftLeft x n = .ok y ↔ (0 ≤ n ∧ n < 64) ∧ y = toSigned 64 (x * 2 ^ n.toNat) := by
  unfold llShiftLeft
  split
  · next h => rw [Except.ok.injEq, eq_comm, and_iff_right h]
  · next h => exact ⟨nofun, fun hx => absurd hx.1 h⟩

theorem llShiftRight_eq_ok {x n y : Int} :
    llShiftRight x n = .ok y ↔ (0 ≤ n ∧ n < 64) ∧ y = x / 2 ^ n.toNat := by
  unfold llShiftRight
  split
  · next h => rw [Except.ok.injEq, eq_comm, and_iff_right h]
  · next h => exact ⟨nofun, fun hx => absurd hx.1 h⟩

/-- A right shift stays in the range. -/
theorem inLongLong.shiftRight {x : Int} (hx : inLongLong x) (n : Nat) : inLongLong (x / 2 ^ n) := by
  obtain ⟨hlo, hhi⟩ := hx
  have hpos : (0 : Int) < 2 ^ n := by positivity
  have hone : (1 : Int) ≤ 2 ^ n := hpos
  constructor
  · rw [Int.le_ediv_iff_mul_le hpos]
    nlinarith
  · rw [Int.ediv_lt_iff_lt_mul hpos]
    nlinarith

/-- A quotient leaves the range in one case only. -/
theorem llDiv_eq_ok {x y z : Int} (hx : inLongLong x) :
    llDiv x y = .ok z ↔ y ≠ 0 ∧ ¬ (x = -2 ^ 63 ∧ y = -1) ∧ z = x.tdiv y := by
  unfold llDiv
  split
  · next hy => exact ⟨nofun, fun h => absurd hy h.1⟩
  · next hy =>
    have hrange : inLongLong (x.tdiv y) ↔ ¬ (x = -2 ^ 63 ∧ y = -1) := by
      obtain ⟨hlo, hhi⟩ := hx
      unfold inLongLong
      by_cases hone : y = -1
      · subst hone
        rw [Int.tdiv_neg, Int.tdiv_one]
        omega
      · refine iff_of_true ?_ fun h => hone h.2
        by_cases hunit : y = 1
        · subst hunit
          rw [Int.tdiv_one]
          exact ⟨hlo, hhi⟩
        · -- any other divisor halves the number at least
          have hle : (x.tdiv y).natAbs ≤ x.natAbs / 2 := by
            rw [Int.natAbs_tdiv]
            exact Nat.div_le_div_left (by omega) (by decide)
          omega
    rw [llResult_eq_ok, hrange]
    exact ⟨fun h => ⟨hy, h⟩, fun h => h.2⟩

/-! ## Accesses -/

theorem llResult_accesses (x : Int) : (llResult x).Accesses := by
  unfold llResult
  split
  · exact Defined.accesses_ok x
  · exact fun _ => ⟨nofun, nofun⟩

theorem llShiftLeft_accesses (x n : Int) : (llShiftLeft x n).Accesses := by
  unfold llShiftLeft
  split
  · exact Defined.accesses_ok _
  · exact fun _ => ⟨nofun, nofun⟩

theorem llShiftRight_accesses (x n : Int) : (llShiftRight x n).Accesses := by
  unfold llShiftRight
  split
  · exact Defined.accesses_ok _
  · exact fun _ => ⟨nofun, nofun⟩

end CLib
