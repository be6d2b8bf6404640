-- SUMMARY: Values through their text and back, and the texts that are accepted as values.
import ZigbeeService.Sdk.Integers

/-!
# Values and their text

What `edgex_value_tostring` prints, `populateValue` reads back. It accepts more than that: the
scanners stop at the first character that is no digit and cut a number to its low bits, and the
decoder may write fewer bytes than a float has.
-/

namespace Zigbee

open CLib

-- ---------------------------------------------------------------------------
-- Integers
-- ---------------------------------------------------------------------------

namespace PropertyType

/-- `%u` reads decimal numbers, `%i` takes the base from the text. -/
def base (t : PropertyType) : Nat := if t.isSigned then 0 else 10

theorem base_eq (t : PropertyType) : t.base = 10 ∨ t.base = 0 := by
  unfold base
  split <;> simp

/-- The conversion of `sscanf` for an integer type. -/
def scan (t : PropertyType) (s : Text) : Option Int :=
  if t.isSigned then scanfInteger s else scanfUnsigned s

variable {t : PropertyType} {s : Text} {x : Int}

theorem scan_isSome (t : PropertyType) (s : Text) : (t.scan s).isSome = startsNumber s := by
  rw [← scanInteger_isSome t.base_eq]
  unfold scan base
  split <;> simp [scanfInteger, scanfUnsigned]

/-- A number of the type is in the range of the scanner. -/
theorem scan_of_holds (ht : t.isInteger = true) (hscan : scanInteger t.base s = some x)
    (hx : t.Holds x) : t.scan s = some x := by
  have hsize := size_le t
  unfold scan
  unfold base at hscan
  split
  · next hsigned =>
    have hne : t ≠ .uint64 := by
      rintro rfl
      cases hsigned
    obtain ⟨hlo, hhi⟩ := hx.inLongLong ht (hx.lt hne)
    have hclamp : clampLong x = x := by
      unfold clampLong
      omega
    rw [if_pos hsigned] at hscan
    rw [scanfInteger, hscan, Option.map_some, hclamp]
  · next hsigned =>
    unfold Holds at hx
    rw [if_neg hsigned] at hscan hx
    have hlt : x < 2 ^ 64 := hx.2.trans_le (pow_le_pow_right₀ (by decide) (by omega))
    have hclamp : clampULong x = x := by
      unfold clampULong
      rw [if_pos (by omega), Int.emod_eq_of_lt hx.1 hlt]
    rw [scanfUnsigned, hscan, Option.map_some, hclamp]

end PropertyType

section Integers

variable {ft : FloatText} {res : CommandResult} {s : Text} {x : Int}

theorem edgexValueTostring_integer (ht : res.type.isInteger = true) (binfloat : Bool) :
    edgexValueTostring ft res binfloat = decimalInt (res.type.reading res.value) := by
  unfold edgexValueTostring PropertyType.reading
  cases htype : res.type with
  | bool | string | binary | float32 | float64 =>
    rw [htype] at ht
    cases ht
  | uint8 | uint16 | uint32 | uint64 | int8 | int16 | int32 | int64 =>
    simp [PropertyType.isSigned, PropertyType.size, decimalInt_natCast]

theorem populateValue_integer (ht : res.type.isInteger = true) (s : Text) :
    populateValue ft res s = scanInto res res.type.size (res.type.scan s) := by
  unfold populateValue
  cases htype : res.type with
  | bool | string | binary | float32 | float64 =>
    rw [htype] at ht
    cases ht
  | uint8 | uint16 | uint32 | uint64 | int8 | int16 | int32 | int64 => rfl

/-- What the scanner reads is stored when the type holds it. -/
theorem populateValue_of_scanInteger (ht : res.type.isInteger = true)
    (hscan : scanInteger res.type.base s = some x) (hx : res.type.Holds x) :
    populateValue ft res s = (true, { res with value := res.value.store res.type.size x }) := by
  rw [populateValue_integer ht, PropertyType.scan_of_holds ht hscan hx]
  rfl

end Integers

-- ---------------------------------------------------------------------------
-- Floats
-- ---------------------------------------------------------------------------

namespace PropertyType

/-- The bytes of a float, and the characters of its text in front of the padding. -/
def floatSize : PropertyType → Nat
  | .float32 => 4
  | .float64 => 8
  | _ => 0

def floatSymbols : PropertyType → Nat
  | .float32 => 6
  | .float64 => 11
  | _ => 0

end PropertyType

/-- The texts that are taken for the bytes of a float. -/
def EncodedFloat (t : PropertyType) (s : Text) : Prop :=
  match t with
  | .float32 => s.length = 8 ∧ s[6]? = some (chr '=') ∧ s[7]? = some (chr '=')
  | .float64 => s.length = 12 ∧ s[11]? = some (chr '=')
  | _ => False

/-- Behind the symbols stands padding. -/
theorem padEquals_getElem? {out : Text} {i : Nat} (hsymbols : out.length ≤ i)
    (hend : i < (padEquals out).length) : (padEquals out)[i]? = some (chr '=') := by
  rw [padEquals, List.length_append, List.length_replicate] at hend
  rw [padEquals, List.getElem?_append_right hsymbols, List.getElem?_replicate, if_pos (by omega)]

section Floats

variable {ft : FloatText} {res : CommandResult} {t : PropertyType} {s : Text}

theorem populateValue_encoded (h : EncodedFloat res.type s) :
    populateValue ft res s = decodeInto res res.type.floatSize s := by
  obtain ⟨origin, type, value⟩ := res
  cases type with
  | float32 | float64 => exact if_pos h
  | _ => exact h.elim

theorem length_leBytes (k n : Nat) : (leBytes k n).length = k := by
  rw [leBytes, List.length_map, List.length_range]

/-- The bytes of a float fit the buffer. -/
theorem edgexB64Encode_leBytes {k : Nat} (hk : k ≤ 8) (n : Nat) :
    (edgexB64Encode (leBytes k n) BUFSIZE).getD [] = padEquals (encodeLoop (leBytes k n)) := by
  have hfit : ¬ BUFSIZE < edgexB64Encodesize (leBytes k n).length := by
    rw [length_leBytes, BUFSIZE, edgexB64Encodesize]
    split <;> omega
  rw [edgexB64Encode, if_neg hfit, Option.getD_some]

/-- They are recognised by their length and their padding. -/
theorem encodedFloat_leBytes (ht : t.isFloat = true) (n : Nat) :
    EncodedFloat t (padEquals (encodeLoop (leBytes t.floatSize n))) := by
  have hsymbols : (encodeLoop (leBytes t.floatSize n)).length = t.floatSymbols := by
    rw [length_encodeLoop, length_leBytes]
    cases t <;> rfl
  have hlen : (padEquals (encodeLoop (leBytes t.floatSize n))).length =
      t.floatSymbols + (4 - t.floatSymbols % 4) % 4 := by
    rw [padEquals, List.length_append, List.length_replicate, hsymbols]
  cases t with
  | float32 =>
    exact ⟨hlen, padEquals_getElem? hsymbols.le (hlen ▸ by decide),
      padEquals_getElem? (hsymbols.le.trans (by decide)) (hlen ▸ by decide)⟩
  | float64 => exact ⟨hlen, padEquals_getElem? hsymbols.le (hlen ▸ by decide)⟩
  | bool | string | binary | uint8 | uint16 | uint32 | uint64 | int8 | int16 | int32 | int64 =>
    cases ht

/-- They come back to where they are written. -/
theorem populateValue_leBytes (ht : res.type.isFloat = true) (v : ResultValue) :
    populateValue ft res (padEquals (encodeLoop (leBytes res.type.floatSize
        (v.load res.type.floatSize)))) =
      (true, { res with
        value := res.value.store res.type.floatSize (v.load res.type.floatSize) }) := by
  rw [populateValue_encoded (encodedFloat_leBytes ht _), decodeInto,
    edgexB64Decode_padEquals (length_leBytes _ _).le]
  dsimp only
  rw [ResultValue.write_leBytes_load]

end Floats

-- ---------------------------------------------------------------------------
-- The round trip
-- ---------------------------------------------------------------------------

/-- The same truth value, number, bit pattern, text or blob. -/
def SameValue (t : PropertyType) (v w : ResultValue) : Prop :=
  match t with
  | .bool => v.load 1 ≠ 0 ↔ w.load 1 ≠ 0
  | .string => v.string = w.string
  | .binary => v.binary = w.binary
  | .float32 => v.load 4 = w.load 4
  | .float64 => v.load 8 = w.load 8
  | .uint8 | .uint16 | .uint32 | .uint64 | .int8 | .int16 | .int32 | .int64 =>
    t.reading v = t.reading w

section RoundTrip

variable {ft : FloatText}

/-- A truth value through its text. -/
theorem populateValue_bool (origin : UInt64) (v w : ResultValue) :
    populateValue ft ⟨origin, .bool, v⟩ (if w.load 1 ≠ 0 then lit "true" else lit "false") =
      (true, ⟨origin, .bool, v.store 1 (if w.load 1 ≠ 0 then 1 else 0)⟩) := by
  have htrue : strcaseeq (lit "true") (lit "true") = true := by decide
  have hfalse : strcaseeq (lit "false") (lit "true") = false := by decide
  have hself : strcaseeq (lit "false") (lit "false") = true := by decide
  split <;> simp [populateValue, htrue, hfalse, hself]

/-- The text of an integer is read back. -/
theorem populateValue_tostring_integer (ft : FloatText) {res : CommandResult}
    (ht : res.type.isInteger = true) (origin : UInt64) (value : ResultValue) :
    ∃ stored, populateValue ft ⟨origin, res.type, value⟩ (edgexValueTostring ft res true) =
        (true, ⟨origin, res.type, stored⟩) ∧ SameValue res.type stored res.value := by
  obtain ⟨origin', type, v⟩ := res
  have hx := PropertyType.holds_reading ht v
  have hscan := scanInteger_decimalInt type.base_eq (type.reading v)
  refine ⟨value.store type.size (type.reading v), ?_, ?_⟩
  · rw [edgexValueTostring_integer ht]
    exact populateValue_of_scanInteger ht hscan hx
  · have hread := PropertyType.reading_store ht hx value
    cases type with
    | bool | string | binary | float32 | float64 => cases ht
    | uint8 | uint16 | uint32 | uint64 | int8 | int16 | int32 | int64 => exact hread

/-- So is that of any other value. -/
theorem populateValue_tostring_other (ft : FloatText) {res : CommandResult}
    (ht : ¬ res.type.isInteger = true) (origin : UInt64) (value : ResultValue) :
    ∃ stored, populateValue ft ⟨origin, res.type, value⟩ (edgexValueTostring ft res true) =
        (true, ⟨origin, res.type, stored⟩) ∧ SameValue res.type stored res.value := by
  obtain ⟨origin', type, v⟩ := res
  cases type with
  | uint8 | uint16 | uint32 | uint64 | int8 | int16 | int32 | int64 => exact absurd rfl ht
  | bool =>
    refine ⟨_, populateValue_bool origin value v, ?_⟩
    unfold SameValue
    dsimp only
    rw [ResultValue.load_store value (by decide)]
    split <;> simp_all
  | string => exact ⟨_, rfl, rfl⟩
  | binary =>
    have hdecode := edgexB64Decode_edgexB64Encode (edgexB64Encode_encodesize v.binary)
    refine ⟨{ value with binary := v.binary }, ?_, rfl⟩
    unfold populateValue edgexValueTostring
    dsimp only
    rw [edgexB64Encode_encodesize, Option.getD_some, hdecode]
  | float32 =>
    refine ⟨value.store 4 (v.load 4), ?_, ResultValue.load_store_load value v (by decide)⟩
    rw [show edgexValueTostring ft ⟨origin', .float32, v⟩ true = _ from
      edgexB64Encode_leBytes (by decide) _]
    exact populateValue_leBytes rfl v
  | float64 =>
    refine ⟨value.store 8 (v.load 8), ?_, ResultValue.load_store_load value v (by decide)⟩
    rw [show edgexValueTostring ft ⟨origin', .float64, v⟩ true = _ from
      edgexB64Encode_leBytes (by decide) _]
    exact populateValue_leBytes rfl v

/-- A value is read back from its text into a result of its type, whatever the result held. -/
theorem populateValue_edgexValueTostring (ft : FloatText) (res : CommandResult) (origin : UInt64)
    (value : ResultValue) :
    ∃ stored, populateValue ft ⟨origin, res.type, value⟩ (edgexValueTostring ft res true) =
        (true, ⟨origin, res.type, stored⟩) ∧ SameValue res.type stored res.value := by
  by_cases ht : res.type.isInteger = true
  · exact populateValue_tostring_integer ft ht origin value
  · exact populateValue_tostring_other ft ht origin value

end RoundTrip

-- ---------------------------------------------------------------------------
-- What is accepted
-- ---------------------------------------------------------------------------

/-- An accepted text is a literal, in the notation that the conversion reads, of a number of the
type, and this number is stored. -/
def StoresLiteral (ft : FloatText) (t : PropertyType) (s : Text) : Prop :=
  ∀ res : CommandResult, res.type = t → (populateValue ft res s).1 = true →
    ∃ x ∈ literal t.base s, t.Holds x ∧ t.reading (populateValue ft res s).2.value = x

/-- Of an accepted float all bytes were decoded, and what is stored does not depend on what was
there before. -/
def DecodesWhole (ft : FloatText) (t : PropertyType) (s : Text) : Prop :=
  EncodedFloat t s → ∀ res : CommandResult, res.type = t → (populateValue ft res s).1 = true →
    (edgexB64Decode s t.floatSize).2.length = t.floatSize ∧
      ∀ res' : CommandResult, res'.type = t →
        (populateValue ft res' s).2.value.load t.floatSize =
          (populateValue ft res s).2.value.load t.floatSize

section Accepted

variable {ft : FloatText} {res : CommandResult} {t : PropertyType} {s : Text} {n : Nat}

theorem storesLiteral_of_holds (ht : t.isInteger = true) {x : Int} (hx : x ∈ literal t.base s)
    (hholds : t.Holds x) : StoresLiteral ft t s := by
  rintro res rfl -
  refine ⟨x, hx, hholds, ?_⟩
  rw [populateValue_of_scanInteger ht (scanInteger_of_literal res.type.base_eq hx) hholds]
  exact PropertyType.reading_store ht hholds res.value

theorem storesLiteral_iff (ht : t.isInteger = true) :
    StoresLiteral ft t s ↔ startsNumber s = false ∨ ∃ x ∈ literal t.base s, t.Holds x := by
  constructor
  · intro h
    by_cases hstart : startsNumber s = true
    · obtain ⟨x, hscan⟩ := Option.isSome_iff_exists.mp ((t.scan_isSome s).trans hstart)
      obtain ⟨y, hy, hholds, -⟩ := h ⟨0, t, ⟨0, [], []⟩⟩ rfl (by
        rw [populateValue_integer ht, hscan]
        rfl)
      exact .inr ⟨y, hy, hholds⟩
    · exact .inl (by simpa using hstart)
  · rintro (hstart | ⟨x, hx, hholds⟩)
    · rintro res rfl hok
      have hscan : res.type.scan s = none := by
        rw [← Option.isNone_iff_eq_none, ← Option.isSome_eq_false_iff, PropertyType.scan_isSome,
          hstart]
      rw [populateValue_integer ht, hscan] at hok
      cases hok
    · exact storesLiteral_of_holds ht hx hholds

theorem EncodedFloat.padded (h : EncodedFloat t s) : s[t.floatSymbols]? = some (chr '=') := by
  cases t with
  | float32 => exact h.2.1
  | float64 => exact h.2
  | _ => exact h.elim

/-- All bytes come from all characters in front of the padding. -/
theorem EncodedFloat.whole_iff (h : EncodedFloat t s) (hn : n ≤ t.floatSymbols) :
    n * 3 / 4 ≤ t.floatSize ∧ (n * 3 / 4 = t.floatSize ↔ n = t.floatSymbols) := by
  cases t with
  | float32 | float64 =>
    rw [PropertyType.floatSymbols] at *
    rw [PropertyType.floatSize]
    omega
  | _ => exact h.elim

/-- There is always room for what is decoded. -/
theorem EncodedFloat.decodes (h : EncodedFloat t s) :
    ((edgexB64Decode s t.floatSize).1 = true ↔ ValidPayload s) ∧
      ((edgexB64Decode s t.floatSize).1 = true →
        ((edgexB64Decode s t.floatSize).2.length = t.floatSize ↔
          ∀ c ∈ s.take t.floatSymbols, isSymbol c = true)) := by
  obtain ⟨hok, hlen⟩ := edgexB64Decode_spec s t.floatSize
  obtain ⟨hfit, hwhole⟩ := h.whole_iff (symbolCount_le h.padded)
  refine ⟨hok.trans (and_iff_left hfit), fun haccepted => ?_⟩
  rw [hlen haccepted, hwhole, symbolCount_eq_iff h.padded]

theorem decodesWhole_iff : DecodesWhole ft t s ↔ (EncodedFloat t s →
    (∀ c ∈ s.take t.floatSymbols, isSymbol c = true) ∨ ¬ ValidPayload s) := by
  refine forall_congr' fun h => ?_
  obtain ⟨hok, hlen⟩ := h.decodes
  have hdecode {res : CommandResult} (ht : res.type = t) :
      populateValue ft res s = decodeInto res t.floatSize s := by
    subst ht
    exact populateValue_encoded h
  constructor
  · intro hwhole
    by_cases hvalid : ValidPayload s
    · have hres := hwhole ⟨0, t, ⟨0, [], []⟩⟩ rfl (by rw [hdecode rfl]; exact hok.mpr hvalid)
      exact .inl ((hlen (hok.mpr hvalid)).mp hres.1)
    · exact .inr hvalid
  · intro hsymbols res ht haccepted
    rw [hdecode ht] at haccepted
    have hsize := (hlen haccepted).mpr
      (hsymbols.resolve_right (not_not_intro (hok.mp haccepted)))
    have hsize8 : t.floatSize ≤ 8 := by cases t <;> decide
    refine ⟨hsize, fun res' ht' => ?_⟩
    rw [hdecode ht, hdecode ht']
    exact (res'.value.load_write hsize hsize8).trans (res.value.load_write hsize hsize8).symm

/-- An integer text is taken for no other value exactly where no number starts it, or it is the
literal of a number of the type; an encoded float is decoded whole exactly where all its characters
are symbols, or one is invalid. -/
theorem populateValue_accepts_iff (ft : FloatText) :
    (∀ t s, t.isInteger = true →
        (StoresLiteral ft t s ↔ startsNumber s = false ∨ ∃ x ∈ literal t.base s, t.Holds x)) ∧
      ∀ t s, DecodesWhole ft t s ↔ (EncodedFloat t s →
        (∀ c ∈ s.take t.floatSymbols, isSymbol c = true) ∨ ¬ ValidPayload s) :=
  ⟨fun _ _ => storesLiteral_iff, fun _ _ => decodesWhole_iff⟩

/-- 300 is stored in a byte, as 44; of five symbols three bytes are written, and one of the old
value stays. -/
theorem populateValue_accepts_others :
    populateValue FloatText.empty ⟨0, .uint8, ⟨0, [], []⟩⟩ (lit "300") =
        (true, ⟨0, .uint8, ⟨44, [], []⟩⟩) ∧
      ¬ StoresLiteral FloatText.empty .uint8 (lit "300") ∧
      populateValue FloatText.empty ⟨0, .float32, ⟨0x3f800000, [], []⟩⟩ (lit "AAAAA===") =
        (true, ⟨0, .float32, ⟨0x3f000000, [], []⟩⟩) ∧
      ¬ DecodesWhole FloatText.empty .float32 (lit "AAAAA===") := by
  have hinteger : populateValue FloatText.empty ⟨0, .uint8, ⟨0, [], []⟩⟩ (lit "300") =
      (true, ⟨0, .uint8, ⟨44, [], []⟩⟩) := by decide +kernel
  have hfloat : populateValue FloatText.empty ⟨0, .float32, ⟨0x3f800000, [], []⟩⟩ (lit "AAAAA===") =
      (true, ⟨0, .float32, ⟨0x3f000000, [], []⟩⟩) := by decide +kernel
  refine ⟨hinteger, fun h => ?_, hfloat, fun h => ?_⟩
  · obtain ⟨x, hx, hholds, -⟩ := h _ rfl (congrArg Prod.fst hinteger)
    have hliteral : literal PropertyType.uint8.base (lit "300") = some 300 := by decide +kernel
    cases Option.some.inj (hliteral.symm.trans hx)
    exact absurd hholds (by decide)
  · have hwhole := (h ⟨rfl, rfl, rfl⟩ _ rfl (congrArg Prod.fst hfloat)).1
    revert hwhole
    decide +kernel

end Accepted

end Zigbee
