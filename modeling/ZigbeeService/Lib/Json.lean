-- SUMMARY: JSON documents as parson holds them: reading members, setting members, and the numbers in them.
import Mathlib.Data.List.GetD
import Mathlib.Data.UInt
import ZigbeeService.Lib.AssocList
import ZigbeeService.Lib.Text

/-!
# JSON documents

The object level of parson. A `JSON_Value *`, `JSON_Object *` or `JSON_Array *` that may be NULL is
an `Option`; every getter takes NULL and answers with its default. Turning a document into text and
back is not modelled here: it is a parameter of what reads and writes documents.
-/

namespace CLib

/-! ## Doubles -/

/-- `uint64_t` to `double`: the value itself while it has at most 53 significant bits, else rounded
to 53 of them, a tie to the even one. -/
def roundDouble (n : Nat) : Nat :=
  if n < 2 ^ 53 then n
  else
    let unit := 2 ^ (n.log2 - 52)
    let q := n / unit
    let r := n % unit
    if 2 * r > unit ∨ (2 * r = unit ∧ q % 2 = 1) then (q + 1) * unit else q * unit

theorem roundDouble_of_lt {n : Nat} (h : n < 2 ^ 53) : roundDouble n = n := if_pos h

/-- `(double) n`. A finite double is a rational number. -/
def doubleOfUint64 (n : UInt64) : Rat := ((roundDouble n.toNat : Int) : Rat)

/-- `(uint64_t) x`: truncation. Outside `0 ≤ x < 2 ^ 64` the conversion is undefined in C. -/
def uint64OfDouble (x : Rat) : UInt64 := UInt64.ofNat x.floor.toNat

/-- Below 2^53 a count goes through a double unchanged. -/
theorem uint64OfDouble_doubleOfUint64 {n : UInt64} (h : n.toNat < 2 ^ 53) :
    uint64OfDouble (doubleOfUint64 n) = n := by
  rw [uint64OfDouble, doubleOfUint64, roundDouble_of_lt h, Rat.floor_intCast, Int.toNat_natCast,
    UInt64.ofNat_toNat]

/-! ## Valid UTF-8 -/

/-- `IS_CONT`. -/
def isCont (b : UInt8) : Bool := b &&& 0xC0 == 0x80

/-- `num_bytes_in_utf8_sequence`. -/
def numBytesInUtf8Sequence (c : UInt8) : Nat :=
  if c == 0xC0 || c == 0xC1 || c > 0xF4 || isCont c then 0
  else if c &&& 0x80 == 0 then 1
  else if c &&& 0xE0 == 0xC0 then 2
  else if c &&& 0xF0 == 0xE0 then 3
  else if c &&& 0xF8 == 0xF0 then 4
  else 0

/-- `verify_utf8_sequence` at the start of `s`: the length of the sequence if it is a valid one.
Behind the last byte the terminating NUL is read. -/
def verifyUtf8Sequence (s : Text) : Option Nat :=
  let byte (i : Nat) : UInt8 := s.getD i 0
  let low (i : Nat) (mask : UInt8) : Nat := (byte i &&& mask).toNat
  let len := numBytesInUtf8Sequence (byte 0)
  let cp : Option Nat :=
    if len = 1 then some (byte 0).toNat
    else if len = 2 ∧ isCont (byte 1) then some (low 0 0x1F * 64 + low 1 0x3F)
    else if len = 3 ∧ isCont (byte 1) ∧ isCont (byte 2) then
      some ((low 0 0xF * 64 + low 1 0x3F) * 64 + low 2 0x3F)
    else if len = 4 ∧ isCont (byte 1) ∧ isCont (byte 2) ∧ isCont (byte 3) then
      some (((low 0 0x7 * 64 + low 1 0x3F) * 64 + low 2 0x3F) * 64 + low 3 0x3F)
    else none
  match cp with
  | none => none
  | some cp =>
    -- overlong encodings
    if (cp < 0x80 ∧ len > 1) ∨ (cp < 0x800 ∧ len > 2) ∨ (cp < 0x10000 ∧ len > 3) then none
    -- invalid unicode
    else if cp > 0x10FFFF then none
    -- surrogate halves
    else if cp ≥ 0xD800 ∧ cp ≤ 0xDFFF then none
    else some len

/-- The loop of `is_valid_utf8`. A sequence has at least one byte, so the length of the text bounds
the number of rounds. -/
def validUtf8From : Nat → Text → Bool
  | _, [] => true
  | 0, _ :: _ => false
  | k + 1, s@(_ :: _) =>
    match verifyUtf8Sequence s with
    | none => false
    | some len => validUtf8From k (s.drop len)

/-- `is_valid_utf8`. -/
def isValidUtf8 (s : Text) : Bool := validUtf8From s.length s

/-- A byte below 0x80 is a sequence of its own. -/
theorem verifyUtf8Sequence_ascii {c : UInt8} (hc : c < 0x80) (s : Text) :
    verifyUtf8Sequence (c :: s) = some 1 := by
  have hlen : numBytesInUtf8Sequence c = 1 := by
    have hall : ∀ n < 128, numBytesInUtf8Sequence (UInt8.ofNat n) = 1 := by decide
    have h := hall c.toNat (by simpa [UInt8.lt_iff_toNat_lt] using hc)
    rwa [UInt8.ofNat_toNat] at h
  have hlt : c.toNat < 0x80 := by simpa [UInt8.lt_iff_toNat_lt] using hc
  simp only [verifyUtf8Sequence, List.getD_cons_zero, hlen, if_true]
  rw [if_neg (by omega), if_neg (by omega), if_neg (by omega)]

/-- ASCII texts are valid UTF-8. -/
theorem isValidUtf8_ascii {s : Text} (h : ∀ c ∈ s, c < 0x80) : isValidUtf8 s = true := by
  unfold isValidUtf8
  induction s with
  | nil => rfl
  | cons c s ih =>
    rw [List.forall_mem_cons] at h
    simp only [List.length_cons, validUtf8From, verifyUtf8Sequence_ascii h.1, List.drop_one,
      List.tail_cons]
    exact ih h.2

/-- A continuation byte lies before the terminator. -/
theorem lt_length_of_isCont {s : Text} {i : Nat} (h : isCont (s.getD i 0) = true) :
    i < s.length := by
  by_contra hge
  rw [List.getD_eq_default _ _ (Nat.not_lt.mp hge)] at h
  exact absurd h (by decide)

/-- A sequence that is valid at the start of a text lies in that text, and what follows the text
does not matter. -/
theorem verifyUtf8Sequence_append {s : Text} {len : Nat} (hs : s ≠ [])
    (h : verifyUtf8Sequence s = some len) (t : Text) :
    len ≤ s.length ∧ verifyUtf8Sequence (s ++ t) = some len := by
  have hbyte : ∀ i < s.length, (s ++ t).getD i 0 = s.getD i 0 := fun i hi =>
    List.getD_append _ _ _ _ hi
  have hpos : 0 < s.length := List.length_pos_iff.mpr hs
  unfold verifyUtf8Sequence at h ⊢
  simp only [hbyte 0 hpos] at h ⊢
  by_cases hone : numBytesInUtf8Sequence (s.getD 0 0) = 1
  · simp only [hone, if_true] at h ⊢
    refine ⟨?_, h⟩
    grind
  by_cases htwo : numBytesInUtf8Sequence (s.getD 0 0) = 2 ∧ isCont (s.getD 1 0)
  · have hlt := lt_length_of_isCont htwo.2
    simp only [htwo, hbyte 1 hlt] at h ⊢
    refine ⟨?_, h⟩
    grind
  by_cases hthree : numBytesInUtf8Sequence (s.getD 0 0) = 3 ∧ isCont (s.getD 1 0) ∧
      isCont (s.getD 2 0)
  · have hlt := lt_length_of_isCont hthree.2.2
    simp only [hthree, hbyte 1 (by omega), hbyte 2 hlt] at h ⊢
    refine ⟨?_, h⟩
    grind
  by_cases hfour : numBytesInUtf8Sequence (s.getD 0 0) = 4 ∧ isCont (s.getD 1 0) ∧
      isCont (s.getD 2 0) ∧ isCont (s.getD 3 0)
  · have hlt := lt_length_of_isCont hfour.2.2.2
    simp only [hfour, hbyte 1 (by omega), hbyte 2 (by omega), hbyte 3 hlt] at h ⊢
    refine ⟨?_, h⟩
    grind
  · rw [if_neg hone, if_neg htwo, if_neg hthree, if_neg hfour] at h
    cases h

theorem validUtf8From_add {j : Nat} {t : Text} (h : validUtf8From j t = true) (k : Nat) :
    validUtf8From (k + j) t = true := by
  induction j generalizing t with
  | zero =>
    cases t with
    | nil => cases k <;> rfl
    | cons c t => cases h
  | succ j ih =>
    cases t with
    | nil => rfl
    | cons c t =>
      rw [← Nat.add_assoc]
      rw [validUtf8From] at h ⊢
      cases hseq : verifyUtf8Sequence (c :: t) with
      | none => simp only [hseq] at h; cases h
      | some len =>
        simp only [hseq] at h ⊢
        exact ih h

theorem validUtf8From_append {k j : Nat} {s t : Text} (hs : validUtf8From k s = true)
    (ht : validUtf8From j t = true) : validUtf8From (k + j) (s ++ t) = true := by
  induction k generalizing s with
  | zero =>
    cases s with
    | nil => rw [Nat.zero_add]; exact ht
    | cons c s => cases hs
  | succ k ih =>
    cases s with
    | nil => exact validUtf8From_add ht _
    | cons c s =>
      rw [validUtf8From] at hs
      cases hseq : verifyUtf8Sequence (c :: s) with
      | none => simp only [hseq] at hs; cases hs
      | some len =>
        simp only [hseq] at hs
        obtain ⟨hlen, happ⟩ := verifyUtf8Sequence_append (List.cons_ne_nil c s) hseq t
        rw [Nat.add_right_comm, List.cons_append, validUtf8From, ← List.cons_append]
        simp only [happ]
        rw [List.drop_append_of_le_length hlen]
        exact ih hs

/-- Valid texts put together are a valid text. -/
theorem isValidUtf8_append {s t : Text} (hs : isValidUtf8 s = true) (ht : isValidUtf8 t = true) :
    isValidUtf8 (s ++ t) = true := by
  rw [isValidUtf8, List.length_append]
  exact validUtf8From_append hs ht

/-! ## Documents -/

/-- `JSON_Value`. An object keeps its members in the order in which they were added. -/
inductive Json where
  | null
  | boolean (b : Bool)
  | number (x : Rat)
  | string (s : Text)
  | array (items : List Json)
  | object (members : List (Text × Json))

/-- `JSON_Object`: names with their values. -/
abbrev Members := List (Text × Json)

/-- `json_value_get_object`. -/
def jsonValueGetObject : Option Json → Option Members
  | some (.object ms) => some ms
  | _ => none

/-- `json_value_get_array`. -/
def jsonValueGetArray : Option Json → Option (List Json)
  | some (.array items) => some items
  | _ => none

/-- `json_value_get_string`. -/
def jsonValueGetString : Option Json → Option Text
  | some (.string s) => some s
  | _ => none

/-- `json_value_get_number`: 0 where there is no number. -/
def jsonValueGetNumber : Option Json → Rat
  | some (.number x) => x
  | _ => 0

/-- `json_value_get_boolean`; its −1 is `none`. -/
def jsonValueGetBoolean : Option Json → Option Bool
  | some (.boolean b) => some b
  | _ => none

/-- `json_object_get_value`. -/
def jsonObjectGetValue (obj : Option Members) (name : Text) : Option Json :=
  obj.bind (assocGet name)

/-- `json_object_get_object`. -/
def jsonObjectGetObject (obj : Option Members) (name : Text) : Option Members :=
  jsonValueGetObject (jsonObjectGetValue obj name)

/-- `json_object_get_array`. -/
def jsonObjectGetArray (obj : Option Members) (name : Text) : Option (List Json) :=
  jsonValueGetArray (jsonObjectGetValue obj name)

/-- `json_object_get_string`. -/
def jsonObjectGetString (obj : Option Members) (name : Text) : Option Text :=
  jsonValueGetString (jsonObjectGetValue obj name)

/-- `json_object_get_number`. -/
def jsonObjectGetNumber (obj : Option Members) (name : Text) : Rat :=
  jsonValueGetNumber (jsonObjectGetValue obj name)

/-- `json_object_get_boolean`. -/
def jsonObjectGetBoolean (obj : Option Members) (name : Text) : Option Bool :=
  jsonValueGetBoolean (jsonObjectGetValue obj name)

/-- The members a loop over `json_object_get_count` visits. -/
def jsonObjectMembers (obj : Option Members) : Members := obj.getD []

/-- The items a loop over `json_array_get_count` visits. -/
def jsonArrayItems (array : Option (List Json)) : List Json := array.getD []

/-- `json_object_set_value`; a NULL value changes nothing. -/
def jsonObjectSetValue (obj : Members) (name : Text) : Option Json → Members
  | none => obj
  | some v => assocSet name v obj

/-- `json_value_init_string`: NULL for a text that is not valid UTF-8. -/
def jsonValueInitString (s : Text) : Option Json :=
  if isValidUtf8 s then some (.string s) else none

/-- `json_object_set_string`. -/
def jsonObjectSetString (obj : Members) (name s : Text) : Members :=
  jsonObjectSetValue obj name (jsonValueInitString s)

/-- `json_object_set_number` of an unsigned count. -/
def jsonObjectSetNumber (obj : Members) (name : Text) (n : UInt64) : Members :=
  jsonObjectSetValue obj name (some (.number (doubleOfUint64 n)))

/-- `json_object_set_boolean`. -/
def jsonObjectSetBoolean (obj : Members) (name : Text) (b : Bool) : Members :=
  jsonObjectSetValue obj name (some (.boolean b))

/-- `json_array_append_string`. -/
def jsonArrayAppendString (array : List Json) (s : Text) : List Json :=
  match jsonValueInitString s with
  | none => array
  | some v => array ++ [v]

/-! ## What a member was set to -/

section Members

variable (obj : Members) (name key : Text)

@[simp] theorem jsonObjectGetValue_setValue (v : Json) :
    jsonObjectGetValue (some (jsonObjectSetValue obj name (some v))) key =
      if key = name then some v else jsonObjectGetValue (some obj) key :=
  assocGet_assocSet key name v obj

/-- A valid text is stored. -/
theorem jsonObjectSetString_valid {s : Text} (h : isValidUtf8 s = true) :
    jsonObjectSetString obj name s = jsonObjectSetValue obj name (some (.string s)) := by
  rw [jsonObjectSetString, jsonValueInitString, if_pos h]

/-- A text that cannot be stored leaves the members as they were. -/
theorem jsonObjectGetValue_setString (s : Text) :
    jsonObjectGetValue (some (jsonObjectSetString obj name s)) key =
      if key = name ∧ isValidUtf8 s = true then some (.string s)
      else jsonObjectGetValue (some obj) key := by
  rw [jsonObjectSetString, jsonValueInitString]
  by_cases hvalid : isValidUtf8 s = true
  · rw [if_pos hvalid, jsonObjectGetValue_setValue]
    simp only [hvalid, and_true]
  · rw [if_neg hvalid, if_neg fun h => hvalid h.2]
    rfl

/-- Whether or not a text could be stored, the other members are as they were. -/
theorem jsonObjectGetValue_setString_ne {name key : Text} (h : key ≠ name) (s : Text) :
    jsonObjectGetValue (some (jsonObjectSetString obj name s)) key =
      jsonObjectGetValue (some obj) key := by
  rw [jsonObjectGetValue_setString, if_neg fun hand => h hand.1]

@[simp] theorem jsonObjectGetValue_nil : jsonObjectGetValue (some []) key = none := rfl

@[simp] theorem jsonValueGetString_string (s : Text) :
    jsonValueGetString (some (.string s)) = some s := rfl

@[simp] theorem jsonValueGetString_none : jsonValueGetString none = none := rfl

@[simp] theorem jsonValueGetNumber_number (x : Rat) :
    jsonValueGetNumber (some (.number x)) = x := rfl

@[simp] theorem jsonValueGetBoolean_boolean (b : Bool) :
    jsonValueGetBoolean (some (.boolean b)) = some b := rfl

@[simp] theorem jsonValueGetObject_object (ms : Members) :
    jsonValueGetObject (some (.object ms)) = some ms := rfl

@[simp] theorem jsonValueGetArray_array (items : List Json) :
    jsonValueGetArray (some (.array items)) = some items := rfl

@[simp] theorem jsonArrayItems_some (items : List Json) : jsonArrayItems (some items) = items := rfl

@[simp] theorem jsonObjectMembers_some (ms : Members) : jsonObjectMembers (some ms) = ms := rfl

end Members

/-- Appending valid texts appends them all. -/
theorem foldl_jsonArrayAppendString {ss : List Text} (h : ∀ s ∈ ss, isValidUtf8 s = true)
    (items : List Json) : ss.foldl jsonArrayAppendString items = items ++ ss.map .string := by
  induction ss generalizing items with
  | nil => simp
  | cons s ss ih =>
    rw [List.forall_mem_cons] at h
    rw [List.foldl_cons, ih h.2, jsonArrayAppendString, jsonValueInitString, if_pos h.1,
      List.map_cons, List.append_assoc, List.singleton_append]

end CLib
