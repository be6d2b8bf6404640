-- SUMMARY: Copying and comparing arrays of results (data.c), and the raw readings that both go by.
import ZigbeeService.Rest.Write
import ZigbeeService.Sdk.Value

/-!
# Arrays of results

`edgex_device_commandresult_dup` and `edgex_device_commandresult_equal`. Both look at the type of a
result and at the member of the union that it names; the origin is neither copied nor compared.
-/

namespace Zigbee

open CLib

-- ---------------------------------------------------------------------------
-- The functions
-- ---------------------------------------------------------------------------

/-- The `switch` of `edgex_device_commandresult_dup`, on storage that `calloc` has cleared. -/
def dupValue (type : PropertyType) (src : ResultValue) : ResultValue :=
  let value := CommandResult.zero.value
  match type with
  | .bool | .uint8 | .int8 => value.store 1 (src.load 1)
  | .uint16 | .int16 => value.store 2 (src.load 2)
  | .uint32 | .int32 | .float32 => value.store 4 (src.load 4)
  | .uint64 | .int64 | .float64 => value.store 8 (src.load 8)
  | .string => { value with string := src.string }
  | .binary => { value with binary := src.binary }

/-- `edgex_device_commandresult_dup`. -/
def edgexDeviceCommandresultDup (res : List CommandResult) : List CommandResult :=
  res.map fun r => { CommandResult.zero with type := r.type, value := dupValue r.type r.value }

/-- `==` on floating values of `w` bits, given by their bit patterns: a NaN equals nothing, and the two
zeros are equal. The pattern of infinity is `inf`. -/
def floatEqual (w inf : Nat) (l r : Nat) : Bool :=
  let magnitude (x : Nat) := x % 2 ^ (w - 1)
  magnitude l ≤ inf ∧ magnitude r ≤ inf ∧ (l = r ∨ magnitude l = 0 ∧ magnitude r = 0)

/-- The `switch` of `edgex_device_commandresult_equal`. -/
def valueEqual (type : PropertyType) (l r : ResultValue) : Bool :=
  match type with
  | .bool => (l.load 1 ≠ 0) = (r.load 1 ≠ 0)
  | .uint8 | .int8 => l.load 1 = r.load 1
  | .uint16 | .int16 => l.load 2 = r.load 2
  | .uint32 | .int32 => l.load 4 = r.load 4
  | .uint64 | .int64 => l.load 8 = r.load 8
  | .float32 => floatEqual 32 0x7f800000 (l.load 4) (r.load 4)
  | .float64 => floatEqual 64 0x7ff0000000000000 (l.load 8) (r.load 8)
  | .string => l.string = r.string
  | .binary => l.binary = r.binary

/-- `edgex_device_commandresult_equal`. Both arrays have `n` entries. -/
def edgexDeviceCommandresultEqual : List CommandResult → List CommandResult → Bool
  | l :: lhs, r :: rhs =>
    if l.type ≠ r.type then false
    else if valueEqual l.type l.value r.value then edgexDeviceCommandresultEqual lhs rhs
    else false
  | _, _ => true

-- ---------------------------------------------------------------------------
-- Raw readings
-- ---------------------------------------------------------------------------

/-- What the member of the union holds that the type of a result names. -/
inductive Content where
  | truth (b : Bool)
  | number (bits : Nat)
  | text (t : Text)
  | blob (bytes : List UInt8)
  deriving DecidableEq

/-- The content of a union at a type. -/
def ResultValue.content (v : ResultValue) : PropertyType → Content
  | .bool => .truth (v.load 1 ≠ 0)
  | .uint8 | .int8 => .number (v.load 1)
  | .uint16 | .int16 => .number (v.load 2)
  | .uint32 | .int32 | .float32 => .number (v.load 4)
  | .uint64 | .int64 | .float64 => .number (v.load 8)
  | .string => .text v.string
  | .binary => .blob v.binary

/-- A reading as a driver returns it: its type and its content. -/
abbrev RawReading := PropertyType × Content

def CommandResult.raw (r : CommandResult) : RawReading := (r.type, r.value.content r.type)

/-- The readings in an array. -/
def rawReadings (res : List CommandResult) : List RawReading := res.map CommandResult.raw

-- ---------------------------------------------------------------------------
-- Copies and comparisons
-- ---------------------------------------------------------------------------

theorem content_dupValue (type : PropertyType) (v : ResultValue) :
    (dupValue type v).content type = v.content type := by
  have hload {k : Nat} (hk : k ≤ 8) := ResultValue.load_store_load CommandResult.zero.value v hk
  cases type with
  | string | binary => rfl
  | bool => exact congrArg (fun n : Nat => Content.truth (n ≠ 0)) (hload (k := 1) (by decide))
  | uint8 | int8 => exact congrArg Content.number (hload (k := 1) (by decide))
  | uint16 | int16 => exact congrArg Content.number (hload (k := 2) (by decide))
  | uint32 | int32 | float32 => exact congrArg Content.number (hload (k := 4) (by decide))
  | uint64 | int64 | float64 => exact congrArg Content.number (hload (k := 8) (by decide))

/-- A copy has the readings of the original. -/
@[simp] theorem rawReadings_dup (res : List CommandResult) :
    rawReadings (edgexDeviceCommandresultDup res) = rawReadings res := by
  rw [rawReadings, edgexDeviceCommandresultDup, List.map_map]
  apply List.map_congr_left
  intro r _
  exact congrArg (Prod.mk r.type) (content_dupValue r.type r.value)

@[simp] theorem length_dup (res : List CommandResult) :
    (edgexDeviceCommandresultDup res).length = res.length :=
  List.length_map _

theorem valueEqual_iff {type : PropertyType} (h : type.isFloat = false) (l r : ResultValue) :
    valueEqual type l r = true ↔ l.content type = r.content type := by
  cases type with
  | float32 | float64 => cases h
  | bool | uint8 | int8 | uint16 | int16 | uint32 | int32 | uint64 | int64 | string | binary =>
    simp [valueEqual, ResultValue.content]

/-- Arrays of one length compare equal exactly when their readings are equal. -/
theorem commandresultEqual_iff {lhs rhs : List CommandResult} (hlen : lhs.length = rhs.length)
    (h : ∀ l ∈ lhs, l.type.isFloat = false) :
    edgexDeviceCommandresultEqual lhs rhs = true ↔ rawReadings lhs = rawReadings rhs := by
  induction lhs generalizing rhs with
  | nil =>
    cases rhs with
    | nil => exact ⟨fun _ => rfl, fun _ => rfl⟩
    | cons r rhs => cases hlen
  | cons l lhs ih =>
    cases rhs with
    | nil => cases hlen
    | cons r rhs =>
      rw [List.forall_mem_cons] at h
      have htail := ih (Nat.succ.inj hlen) h.2
      have hhead := valueEqual_iff h.1 l.value r.value
      simp only [edgexDeviceCommandresultEqual, rawReadings, List.map_cons, List.cons.injEq]
      unfold rawReadings at htail
      rw [← htail]
      unfold CommandResult.raw
      by_cases htype : l.type = r.type
      · rw [if_neg (not_not.mpr htype), Prod.mk.injEq, ← htype, ← hhead]
        simp
      · rw [if_pos htype, Prod.mk.injEq]
        simp [htype]

end Zigbee
