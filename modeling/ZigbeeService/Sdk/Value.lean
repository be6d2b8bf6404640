-- SUMMARY: Command requests and results of the SDK, and the conversions between values and their text.
import Mathlib.Data.UInt
import ZigbeeService.Lib.Number
import ZigbeeService.Sdk.Base64

/-!
# Values

`edgex_value_tostring` and `populateValue`, which the SDK (`device.c`) and the driver (`user.c`)
share word for word.
-/

namespace Zigbee

open CLib

/-! ## Data -/

/-- `edgex_propertytype`. -/
inductive PropertyType where
  | bool
  | string
  | binary
  | uint8 | uint16 | uint32 | uint64
  | int8 | int16 | int32 | int64
  | float32 | float64
  deriving DecidableEq, Repr

/-- `edgex_device_resultvalue`. The scalar members overlay each other in `bits`, least significant
byte first. A string or blob is kept with its contents; the pointer bits it leaves in the storage
are not modelled. -/
structure ResultValue where
  bits : UInt64
  string : Text
  binary : List UInt8
  deriving DecidableEq

/-- `edgex_device_commandrequest`. The driver does not read the attributes. -/
structure CommandRequest where
  resname : Text
  type : PropertyType
  deriving DecidableEq

/-- `edgex_device_commandresult`. -/
structure CommandResult where
  origin : UInt64
  type : PropertyType
  value : ResultValue
  deriving DecidableEq

/-- A result as `calloc` leaves it. -/
def CommandResult.zero : CommandResult := ⟨0, .bool, ⟨0, [], []⟩⟩

/-- The floating-point conversions of the C library, on bit patterns: `sscanf` with `%e` and `%le`,
`sprintf` with `%.8e` and `%.16e`. -/
structure FloatText where
  scanf32 : Text → Option UInt32
  scanf64 : Text → Option UInt64
  printf32 : UInt32 → Text
  printf64 : UInt64 → Text

/-- The conversions of a library without floats. -/
def FloatText.empty : FloatText := ⟨fun _ => none, fun _ => none, fun _ => [], fun _ => []⟩

/-! ## The union -/

/-- The `k` low bytes of a number. -/
def leBytes (k n : Nat) : List UInt8 := (List.range k).map fun i => UInt8.ofNat (n / 256 ^ i)

namespace ResultValue

/-- The scalar member of `k` bytes. -/
def load (v : ResultValue) (k : Nat) : Nat := v.bits.toNat % 256 ^ k

/-- Write bytes to the start of the storage. -/
def write (v : ResultValue) (bs : List UInt8) : ResultValue :=
  let k := bs.length
  let low := Nat.ofDigits 256 (bs.map UInt8.toNat)
  { v with bits := UInt64.ofNat (low + v.bits.toNat / 256 ^ k * 256 ^ k) }

/-- Assign to the scalar member of `k` bytes. -/
def store (v : ResultValue) (k : Nat) (x : Int) : ResultValue :=
  v.write (leBytes k (x % 256 ^ k).toNat)

end ResultValue

theorem leBytes_succ (k n : Nat) : leBytes (k + 1) n = UInt8.ofNat n :: leBytes k (n / 256) := by
  simp only [leBytes, List.range_succ_eq_map, List.map_cons, List.map_map, Nat.pow_zero, Nat.div_one]
  congr 1
  apply List.map_congr_left
  intro i _
  rw [Function.comp_apply, Nat.succ_eq_add_one, Nat.pow_succ, Nat.mul_comm, Nat.div_div_eq_div_mul]

theorem ofDigits_leBytes (k n : Nat) :
    Nat.ofDigits 256 ((leBytes k n).map UInt8.toNat) = n % 256 ^ k := by
  induction k generalizing n with
  | zero => simp [leBytes, Nat.mod_one]
  | succ k ih =>
    rw [leBytes_succ, List.map_cons, Nat.ofDigits_cons, ih, UInt8.toNat_ofNat', pow_succ' 256 k]
    exact Nat.mod_mul.symm

theorem lowBytes_lt (k : Nat) (x : Int) : (x % 256 ^ k).toNat < 256 ^ k := by
  have hpos : (0 : Int) < 256 ^ k := by positivity
  have hbound := Int.emod_lt_of_pos x hpos
  zify
  rwa [Int.toNat_of_nonneg (Int.emod_nonneg x (Int.ne_of_gt hpos))]

namespace ResultValue

/-- What is read of written bytes does not depend on what was there before. -/
theorem load_write (v : ResultValue) {bs : List UInt8} {k : Nat} (hlen : bs.length = k)
    (hk : k ≤ 8) : (v.write bs).load k = Nat.ofDigits 256 (bs.map UInt8.toNat) % 256 ^ k := by
  have hdvd : 256 ^ k ∣ 2 ^ 64 := by
    have hpow : (2 : Nat) ^ 64 = 256 ^ 8 := by norm_num
    rw [hpow]
    exact Nat.pow_dvd_pow 256 hk
  rw [load, write, hlen]
  dsimp only
  rw [UInt64.toNat_ofNat', Nat.mod_mod_of_dvd _ hdvd, Nat.add_mul_mod_self_right]

/-- Only the low bytes of what is assigned count. -/
theorem store_congr (v : ResultValue) {k : Nat} {x y : Int} (h : x % 256 ^ k = y % 256 ^ k) :
    v.store k x = v.store k y := by
  rw [store, store, h]

/-- The bytes behind a member stay. -/
theorem toNat_bits_store (v : ResultValue) {k : Nat} (hk : k ≤ 8) (x : Int) :
    (v.store k x).bits.toNat = (x % 256 ^ k).toNat + v.bits.toNat / 256 ^ k * 256 ^ k := by
  have hlen : (leBytes k (x % 256 ^ k).toNat).length = k := by simp [leBytes]
  have hpos : 0 < 256 ^ k := by positivity
  have hlt := lowBytes_lt k x
  obtain ⟨c, hc⟩ : 256 ^ k ∣ 2 ^ 64 := by
    have hpow : (2 : Nat) ^ 64 = 256 ^ 8 := by norm_num
    rw [hpow]
    exact Nat.pow_dvd_pow 256 hk
  have hhigh : v.bits.toNat / 256 ^ k < c := by
    rw [Nat.div_lt_iff_lt_mul hpos, Nat.mul_comm, ← hc]
    exact v.bits.toNat_lt
  have hsum : (x % 256 ^ k).toNat + v.bits.toNat / 256 ^ k * 256 ^ k < 2 ^ 64 := by
    rw [hc, Nat.mul_comm (256 ^ k)]
    calc (x % 256 ^ k).toNat + v.bits.toNat / 256 ^ k * 256 ^ k
        < 256 ^ k + v.bits.toNat / 256 ^ k * 256 ^ k := Nat.add_lt_add_right hlt _
      _ = (v.bits.toNat / 256 ^ k + 1) * 256 ^ k := by ring
      _ ≤ c * 256 ^ k := Nat.mul_le_mul_right _ hhigh
  rw [store, write]
  dsimp only
  rw [hlen, ofDigits_leBytes, Nat.mod_eq_of_lt hlt, UInt64.toNat_ofNat', Nat.mod_eq_of_lt hsum]

/-- A scalar member is read as it was assigned. -/
theorem load_store (v : ResultValue) {k : Nat} (hk : k ≤ 8) (x : Int) :
    (v.store k x).load k = (x % 256 ^ k).toNat := by
  rw [load, toNat_bits_store v hk, Nat.add_mul_mod_self_right, Nat.mod_eq_of_lt (lowBytes_lt k x)]

/-- A member has no more bytes than are assigned. -/
theorem lowBytes_load (v : ResultValue) (k : Nat) :
    ((v.load k : Int) % 256 ^ k).toNat = v.load k := by
  have hlt : v.load k < 256 ^ k := Nat.mod_lt _ (by positivity)
  rw [Int.emod_eq_of_lt (Int.natCast_nonneg _) (by exact_mod_cast hlt), Int.toNat_natCast]

/-- A member that is assigned what it holds stays as it is. -/
theorem store_load_self (v : ResultValue) {k : Nat} (hk : k ≤ 8) : v.store k (v.load k) = v := by
  have hbits : (v.store k (v.load k)).bits = v.bits := by
    rw [← UInt64.toNat_inj, toNat_bits_store v hk, lowBytes_load, load, Nat.mod_add_div']
  exact congrArg (fun bits => { v with bits }) hbits

/-- Of two assignments the second counts. -/
theorem store_store (v : ResultValue) {k : Nat} (hk : k ≤ 8) (x y : Int) :
    (v.store k x).store k y = v.store k y := by
  have hlt := lowBytes_lt k x
  have hbits : ((v.store k x).store k y).bits = (v.store k y).bits := by
    rw [← UInt64.toNat_inj, toNat_bits_store _ hk, toNat_bits_store v hk, toNat_bits_store v hk,
      Nat.add_mul_div_right _ _ (by positivity), Nat.div_eq_of_lt hlt, Nat.zero_add]
  exact congrArg (fun bits => { v with bits }) hbits

/-- The bytes of a member are what is assigned to another. -/
theorem write_leBytes_load (v w : ResultValue) (k : Nat) :
    v.write (leBytes k (w.load k)) = v.store k (w.load k) := by
  rw [store, lowBytes_load]

/-- A member that is copied is read as the original. -/
theorem load_store_load (v w : ResultValue) {k : Nat} (hk : k ≤ 8) :
    (v.store k (w.load k)).load k = w.load k := by
  rw [load_store v hk, lowBytes_load]

end ResultValue

/-! ## Value to text -/

def BUFSIZE : Nat := 32

/-- `edgex_value_tostring`. -/
def edgexValueTostring (ft : FloatText) (res : CommandResult) (binfloat : Bool) : Text :=
  let v := res.value
  match res.type with
  | .bool => if v.load 1 ≠ 0 then lit "true" else lit "false"
  | .uint8 => decimal (v.load 1)
  | .uint16 => decimal (v.load 2)
  | .uint32 => decimal (v.load 4)
  | .uint64 => decimal (v.load 8)
  | .int8 => decimalInt (toSigned 8 (v.load 1))
  | .int16 => decimalInt (toSigned 16 (v.load 2))
  | .int32 => decimalInt (toSigned 32 (v.load 4))
  | .int64 => decimalInt (toSigned 64 (v.load 8))
  | .float32 =>
    if binfloat then (edgexB64Encode (leBytes 4 (v.load 4)) BUFSIZE).getD []
    else ft.printf32 (UInt32.ofNat (v.load 4))
  | .float64 =>
    if binfloat then (edgexB64Encode (leBytes 8 (v.load 8)) BUFSIZE).getD []
    else ft.printf64 (UInt64.ofNat (v.load 8))
  | .string => v.string
  | .binary => (edgexB64Encode v.binary (edgexB64Encodesize v.binary.length)).getD []

/-! ## Text to value -/

/-- `return (sscanf (val, …, &member) == 1)` for an integer member of `k` bytes. -/
def scanInto (res : CommandResult) (k : Nat) : Option Int → Bool × CommandResult
  | some x => (true, { res with value := res.value.store k x })
  | none => (false, res)

/-- `edgex_b64_decode` into the storage of a float member of `k` bytes: what it wrote stays there
even when it fails. -/
def decodeInto (res : CommandResult) (k : Nat) (val : Text) : Bool × CommandResult :=
  let (ok, bs) := edgexB64Decode val k
  (ok, { res with value := res.value.write bs })

/-- `populateValue`: whether the text was accepted, and the result with what was stored in it. A
blob that fails to decode keeps the bytes decoded so far. -/
def populateValue (ft : FloatText) (res : CommandResult) (val : Text) : Bool × CommandResult :=
  match res.type with
  | .string => (true, { res with value := { res.value with string := val } })
  | .bool =>
    if strcaseeq val (lit "true") then (true, { res with value := res.value.store 1 1 })
    else if strcaseeq val (lit "false") then (true, { res with value := res.value.store 1 0 })
    else (false, res)
  | .uint8 => scanInto res 1 (scanfUnsigned val)
  | .uint16 => scanInto res 2 (scanfUnsigned val)
  | .uint32 => scanInto res 4 (scanfUnsigned val)
  | .uint64 => scanInto res 8 (scanfUnsigned val)
  | .int8 => scanInto res 1 (scanfInteger val)
  | .int16 => scanInto res 2 (scanfInteger val)
  | .int32 => scanInto res 4 (scanfInteger val)
  | .int64 => scanInto res 8 (scanfInteger val)
  | .float32 =>
    if val.length = 8 ∧ val[6]? = some (chr '=') ∧ val[7]? = some (chr '=') then
      decodeInto res 4 val
    else scanInto res 4 ((ft.scanf32 val).map fun b => (b.toNat : Int))
  | .float64 =>
    if val.length = 12 ∧ val[11]? = some (chr '=') then decodeInto res 8 val
    else scanInto res 8 ((ft.scanf64 val).map fun b => (b.toNat : Int))
  | .binary =>
    let (ok, bs) := edgexB64Decode val (edgexB64Maxdecodesize val)
    (ok, { res with value := { res.value with binary := bs } })

theorem scanInto_origin (res : CommandResult) (k : Nat) (x : Option Int) :
    (scanInto res k x).2.origin = res.origin := by
  cases x <;> rfl

theorem scanInto_type (res : CommandResult) (k : Nat) (x : Option Int) :
    (scanInto res k x).2.type = res.type := by
  cases x <;> rfl

/-- Parsing a value leaves the type and the origin of the result alone. -/
theorem populateValue_frame (ft : FloatText) (res : CommandResult) (val : Text) :
    (populateValue ft res val).2.type = res.type ∧
      (populateValue ft res val).2.origin = res.origin := by
  unfold populateValue
  split <;>
    (try split) <;> (try split) <;>
    simp [*, scanInto_type, scanInto_origin, decodeInto]

/-- Whether a value is accepted does not depend on what the result held before. -/
theorem populateValue_fst (ft : FloatText) {res res' : CommandResult} (h : res.type = res'.type)
    (val : Text) : (populateValue ft res val).1 = (populateValue ft res' val).1 := by
  have hscan (k : Nat) (x : Option Int) : (scanInto res k x).1 = (scanInto res' k x).1 := by
    cases x <;> rfl
  unfold populateValue
  rw [← h]
  cases res.type with
  | bool => dsimp only; split <;> (try split) <;> rfl
  | float32 | float64 => dsimp only; split <;> first | rfl | exact hscan _ _
  | string | binary => rfl
  | uint8 | uint16 | uint32 | uint64 | int8 | int16 | int32 | int64 => exact hscan _ _

/-! ## The separator in a rendered value -/

theorem hash_notMem_enc : chr '#' ∉ enc := by decide

theorem hash_notMem_encoded (inp : List UInt8) (outLen : Nat) :
    chr '#' ∉ (edgexB64Encode inp outLen).getD [] := by
  cases h : edgexB64Encode inp outLen with
  | none => simp
  | some out =>
    intro hmem
    rcases mem_edgexB64Encode h hmem with hsym | hpad
    · exact hash_notMem_enc hsym
    · exact absurd hpad (by decide)

theorem hash_notMem_decimal (n : Nat) : chr '#' ∉ decimal n := fun h =>
  absurd (isdigit_of_mem_decimal h) (by decide)

theorem hash_notMem_decimalInt (x : Int) : chr '#' ∉ decimalInt x := by
  unfold decimalInt
  split
  · rw [List.mem_cons, not_or]
    exact ⟨by decide, hash_notMem_decimal _⟩
  · exact hash_notMem_decimal _

/-- Only a String can render to a text with a `#`. -/
theorem hash_mem_edgexValueTostring {ft : FloatText} {res : CommandResult} :
    chr '#' ∈ edgexValueTostring ft res true ↔
      res.type = .string ∧ chr '#' ∈ res.value.string := by
  unfold edgexValueTostring
  cases res.type with
  | string => simp
  | bool => dsimp only; split <;> simp <;> decide
  | uint8 | uint16 | uint32 | uint64 => simp [hash_notMem_decimal]
  | int8 | int16 | int32 | int64 => simp [hash_notMem_decimalInt]
  | float32 | float64 | binary => simp [hash_notMem_encoded]

end Zigbee
