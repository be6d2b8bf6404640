-- SUMMARY: Outgoing integer transformations against exact arithmetic, and the arguments for which they are defined.
import ZigbeeService.Sdk.Integers
import ZigbeeService.Sdk.Transform

/-!
# Transformations and exact arithmetic

All integer types go through one `long long`. A reading of `Uint64` from 2^63 on becomes negative
there, products and sums may leave its range, and shift counts are not checked anywhere.
-/

namespace Zigbee

open CLib

-- ---------------------------------------------------------------------------
-- In and out of the accumulator
-- ---------------------------------------------------------------------------

section Accumulator

variable {props : PropertyValue}

/-- The accumulator starts with the low 64 bits of the reading. -/
theorem getLLInt_eq (ht : props.type.isInteger = true) (value : ResultValue) :
    getLLInt value props = toSigned 64 (props.type.reading value) := by
  have hrange := PropertyType.holds_reading ht value
  unfold getLLInt
  by_cases hne : props.type = .uint64
  · rw [hne]
    rfl
  · rw [toSigned64_eq_iff.mpr (hrange.inLongLong ht (hrange.lt hne))]
    generalize props.type = t at *
    cases t with
    | uint64 => exact absurd rfl hne
    | bool | string | binary | float32 | float64 => cases ht
    | uint8 | uint16 | uint32 | int8 | int16 | int32 | int64 =>
      simp [PropertyType.reading, PropertyType.isSigned, PropertyType.size]

/-- It ends in the result when the type holds the number. -/
theorem setLLInt_eq (ht : props.type.isInteger = true) (x : Int) (value : ResultValue) :
    setLLInt x value props =
      if props.type.Holds x then some (value.store props.type.size x) else none := by
  have hmember {lo hi : Int} (h : x ≥ lo ∧ x ≤ hi ↔ props.type.Holds x) :
      setMember x value props.type.size lo hi =
        if props.type.Holds x then some (value.store props.type.size x) else none := by
    unfold setMember
    exact if_congr h rfl rfl
  unfold setLLInt
  generalize props.type = t at *
  cases t with
  | bool | string | binary | float32 | float64 => cases ht
  | uint8 | uint16 | uint32 | uint64 | int8 | int16 | int32 | int64 =>
    refine hmember ?_
    norm_num [PropertyType.Holds, PropertyType.isSigned, PropertyType.size]
    omega

end Accumulator

-- ---------------------------------------------------------------------------
-- The steps
-- ---------------------------------------------------------------------------

/-- A shift count that C defines, in both directions. -/
def ShiftCount (shift : TransformArg) : Prop := ∀ s ∈ shift, -63 ≤ ival s ∧ ival s ≤ 63

instance : (shift : TransformArg) → Decidable (ShiftCount shift)
  | none => .isTrue nofun
  | some s => decidable_of_iff (-63 ≤ ival s ∧ ival s ≤ 63) (by simp [ShiftCount])

/-- The mask, on all bits of a number. -/
def masked (mask : TransformArg) (x : Int) : Int := mask.elim x fun m => Int.land x (ival m)

/-- The shift: to the right by a positive count, else to the left. -/
def shifted (shift : TransformArg) (x : Int) : Int :=
  shift.elim x fun s =>
    if ival s < 0 then x * 2 ^ (-ival s).toNat else x / 2 ^ (ival s).toNat

/-- Mask and shift in the accumulator: its bits are cut off before a right shift, and behind a left
shift. -/
def carried (mask shift : TransformArg) (x : Int) : Int :=
  shift.elim (toSigned 64 (masked mask x)) fun s =>
    if ival s < 0 then toSigned 64 (masked mask x * 2 ^ (-ival s).toNat)
    else toSigned 64 (masked mask x) / 2 ^ (ival s).toNat

/-- The factor; one when there is none. -/
def factor (scale : TransformArg) : Int := scale.elim 1 ival

/-- The summand; zero when there is none. -/
def summand (offset : TransformArg) : Int := offset.elim 0 ival

section Steps

variable {arg : TransformArg} {x y : Int} {value : UInt64}

/-- A shift by a negative count goes by the negated count the other way. -/
theorem negatedCount_eq_ok {shift : Int → Defined Int} {shifted : Int → Int} (hneg : ival value < 0)
    (hshift : ∀ n z, shift n = .ok z ↔ (0 ≤ n ∧ n < 64) ∧ z = shifted n) :
    (llNeg (ival value) >>= shift) = .ok y ↔
      (-63 ≤ ival value ∧ ival value ≤ 63) ∧ y = shifted (-ival value) := by
  simp only [Defined.bind_eq_ok, llNeg, llResult_eq_ok, hshift]
  constructor
  · rintro ⟨n, ⟨-, hn⟩, hcount, hy⟩
    rw [hn] at hcount hy
    exact ⟨by omega, hy⟩
  · rintro ⟨hcount, rfl⟩
    exact ⟨-ival value, ⟨by unfold inLongLong; omega, rfl⟩, by omega, rfl⟩

theorem shiftOutgoing_eq_ok :
    shiftOutgoing x value = .ok y ↔ (-63 ≤ ival value ∧ ival value ≤ 63) ∧
      y = if ival value < 0 then toSigned 64 (x * 2 ^ (-ival value).toNat)
        else x / 2 ^ (ival value).toNat := by
  unfold shiftOutgoing
  by_cases hneg : ival value < 0
  · simp only [if_pos hneg]
    have hshift (n z : Int) : llShiftLeft x n = .ok z ↔
        (0 ≤ n ∧ n < 64) ∧ z = toSigned 64 (x * 2 ^ n.toNat) := llShiftLeft_eq_ok
    rw [negatedCount_eq_ok hneg hshift]
  · simp only [if_neg hneg, llShiftRight_eq_ok]
    exact and_congr_left fun _ => by omega

theorem shiftIncoming_eq_ok :
    shiftIncoming x value = .ok y ↔ (-63 ≤ ival value ∧ ival value ≤ 63) ∧
      y = if ival value < 0 then x / 2 ^ (-ival value).toNat
        else toSigned 64 (x * 2 ^ (ival value).toNat) := by
  unfold shiftIncoming
  by_cases hneg : ival value < 0
  · simp only [if_pos hneg]
    have hshift (n z : Int) : llShiftRight x n = .ok z ↔
        (0 ≤ n ∧ n < 64) ∧ z = x / 2 ^ n.toNat := llShiftRight_eq_ok
    rw [negatedCount_eq_ok hneg hshift]
  · simp only [if_neg hneg, llShiftLeft_eq_ok]
    exact and_congr_left fun _ => by omega

theorem shiftCount_some : ShiftCount (some value) ↔ -63 ≤ ival value ∧ ival value ≤ 63 := by
  simp [ShiftCount]

/-- Masking in the accumulator. -/
theorem applyMask_eq (mask : TransformArg) (v : Int) :
    applyArg mask (fun r m => .ok (llAnd r (ival m))) (toSigned 64 v) =
      .ok (toSigned 64 (masked mask v)) := by
  cases mask with
  | none => rfl
  | some m => exact congrArg Except.ok (llAnd_toSigned v (ival m))

/-- Shifting there is defined for defined counts. -/
theorem applyShift_eq_ok {mask shift : TransformArg} {v : Int} :
    applyArg shift shiftOutgoing (toSigned 64 (masked mask v)) = .ok y ↔
      ShiftCount shift ∧ y = carried mask shift v := by
  cases shift with
  | none =>
    rw [applyArg, Except.ok.injEq, eq_comm, carried, Option.elim_none]
    exact ⟨fun h => ⟨nofun, h⟩, And.right⟩
  | some s =>
    rw [applyArg, shiftOutgoing_eq_ok, shiftCount_some, carried, Option.elim_some, toSigned64_mul]

theorem carried_inLongLong (mask shift : TransformArg) (v : Int) :
    inLongLong (carried mask shift v) := by
  unfold carried
  cases shift with
  | none => exact toSigned64_bounds _
  | some s =>
    rw [Option.elim_some]
    split
    · exact toSigned64_bounds _
    · exact (toSigned64_bounds _).shiftRight _

theorem applyScale_eq_ok (hx : inLongLong x) :
    applyArg arg (fun r k => llMul r (ival k)) x = .ok y ↔
      inLongLong (x * factor arg) ∧ y = x * factor arg := by
  cases arg with
  | none =>
    rw [applyArg, Except.ok.injEq, eq_comm, factor, Option.elim_none, Int.mul_one, and_iff_right hx]
  | some k => rw [applyArg, llMul, llResult_eq_ok, factor, Option.elim_some]

theorem applyOffset_eq_ok (hx : inLongLong x) :
    applyArg arg (fun r k => llAdd r (ival k)) x = .ok y ↔
      inLongLong (x + summand arg) ∧ y = x + summand arg := by
  cases arg with
  | none =>
    rw [applyArg, Except.ok.injEq, eq_comm, summand, Option.elim_none, Int.add_zero,
      and_iff_right hx]
  | some k => rw [applyArg, llAdd, llResult_eq_ok, summand, Option.elim_some]

end Steps

/-! ## The transformation -/

/-- The exact result of mask, shift, scale and offset. -/
def exactOutgoing (props : PropertyValue) (v : Int) : Int :=
  shifted props.shift (masked props.mask v) * factor props.scale + summand props.offset

/-- The result that the accumulator has, as far as it is defined. -/
def accumulated (props : PropertyValue) (v : Int) : Int :=
  carried props.mask props.shift v * factor props.scale + summand props.offset

/-- Every step of the outgoing transformation is defined. -/
def OutgoingDefined (props : PropertyValue) (v : Int) : Prop :=
  ShiftCount props.shift ∧
    inLongLong (carried props.mask props.shift v * factor props.scale) ∧
    inLongLong (accumulated props v)

section Outgoing

variable {L : Type} {ld : LongDouble L} {props : PropertyValue} {cres res : CommandResult}
  {mappings : NvPairs} {v y : Int}

theorem outgoingInt_eq_ok (hbase : props.base = none) :
    outgoingInt ld props (toSigned 64 v) = .ok y ↔
      OutgoingDefined props v ∧ y = accumulated props v := by
  have hcarried := carried_inLongLong props.mask props.shift v
  unfold outgoingInt OutgoingDefined
  rw [applyMask_eq, Defined.ok_bind, hbase]
  simp only [Defined.bind_eq_ok, applyShift_eq_ok]
  constructor
  · rintro ⟨c, ⟨hcount, hc⟩, d, hd, e, hscale, hoffset⟩
    cases hd
    rw [hc, applyScale_eq_ok hcarried] at hscale
    rw [hscale.2, applyOffset_eq_ok hscale.1] at hoffset
    exact ⟨⟨hcount, hscale.1, hoffset.1⟩, hoffset.2⟩
  · rintro ⟨⟨hcount, hscale, hoffset⟩, hy⟩
    exact ⟨_, ⟨hcount, rfl⟩, _, rfl, _, (applyScale_eq_ok hcarried).mpr ⟨hscale, rfl⟩,
      (applyOffset_eq_ok hscale).mpr ⟨hoffset, hy⟩⟩

/-- What a defined transformation leaves. -/
def outcome (props : PropertyValue) (cres : CommandResult) (r : Int) : CommandResult :=
  if props.type.Holds r then { cres with value := cres.value.store props.type.size r }
  else cres.overflowed

/-- The reading of a result of the type of its property. -/
def readingOf (props : PropertyValue) (cres : CommandResult) : Int := props.type.reading cres.value

/-- The storage of a number overlays no pointer. -/
theorem scalars_integer (ht : props.type.isInteger = true) (hcres : cres.type = props.type) :
    scalars cres = .ok cres.value := by
  rw [scalars, hcres]
  generalize props.type = t at ht
  cases t with
  | string | binary => cases ht
  | _ => rfl

/-- For integer types: out of the accumulator what the steps leave there. -/
theorem edgexTransformOutgoing_integer (ht : props.type.isInteger = true)
    (hcres : cres.type = props.type) :
    edgexTransformOutgoing ld cres props mappings =
      if transformsOn props then
        outgoingInt ld props (toSigned 64 (readingOf props cres)) >>= fun r =>
          .ok (outcome props cres r)
      else .ok cres := by
  unfold edgexTransformOutgoing
  rw [scalars_integer ht hcres]
  cases htype : props.type with
  | bool | string | binary | float32 | float64 =>
    rw [htype] at ht
    cases ht
  | uint8 | uint16 | uint32 | uint64 | int8 | int16 | int32 | int64 =>
    refine if_congr Iff.rfl ?_ rfl
    rw [Defined.ok_bind, getLLInt_eq ht, readingOf]
    refine congrArg _ (funext fun r => ?_)
    rw [setLLInt_eq ht, outcome]
    by_cases hholds : props.type.Holds r
    · rw [if_pos hholds, if_pos hholds]
      rfl
    · rw [if_neg hholds, if_neg hholds]
      rfl

theorem edgexTransformOutgoing_off (ht : props.type.isInteger = true)
    (hcres : cres.type = props.type) (hoff : transformsOn props = false) :
    edgexTransformOutgoing ld cres props mappings = .ok cres := by
  rw [edgexTransformOutgoing_integer ht hcres, hoff]
  rfl

theorem edgexTransformOutgoing_eq_ok (ht : props.type.isInteger = true)
    (hcres : cres.type = props.type) (hbase : props.base = none) (hon : transformsOn props = true) :
    edgexTransformOutgoing ld cres props mappings = .ok res ↔
      OutgoingDefined props (readingOf props cres) ∧
        res = outcome props cres (accumulated props (readingOf props cres)) := by
  rw [edgexTransformOutgoing_integer ht hcres, if_pos hon]
  simp only [Defined.bind_eq_ok, outgoingInt_eq_ok hbase]
  constructor
  · rintro ⟨r, ⟨hdefined, hr⟩, hres⟩
    exact ⟨hdefined, by rw [← Except.ok.inj hres, hr]⟩
  · rintro ⟨hdefined, hres⟩
    exact ⟨_, ⟨hdefined, rfl⟩, by rw [hres]⟩

end Outgoing

/-- The shift taken back, in the accumulator. -/
def unshifted (shift : TransformArg) (x : Int) : Int :=
  shift.elim x fun s =>
    if ival s < 0 then x / 2 ^ (-ival s).toNat else toSigned 64 (x * 2 ^ (ival s).toNat)

/-- The accumulator without the summand. -/
def reduced (props : PropertyValue) (w : Int) : Int := toSigned 64 w - summand props.offset

/-- What the incoming transformation makes of a number, as far as it is defined. -/
def restored (props : PropertyValue) (w : Int) : Int :=
  unshifted props.shift ((reduced props w).tdiv (factor props.scale))

/-- Every step of the incoming transformation is defined. -/
def IncomingDefined (props : PropertyValue) (w : Int) : Prop :=
  inLongLong (reduced props w) ∧ factor props.scale ≠ 0 ∧
    ¬ (reduced props w = -2 ^ 63 ∧ factor props.scale = -1) ∧ ShiftCount props.shift

section Incoming

variable {L : Type} {ld : LongDouble L} {props : PropertyValue} {cres res : CommandResult}
  {mappings : NvPairs} {w x y : Int} {ok : Bool}

theorem takeOffset_eq_ok {offset : TransformArg} (hx : inLongLong x) :
    applyArg offset (fun r k => llSub r (ival k)) x = .ok y ↔
      inLongLong (x - summand offset) ∧ y = x - summand offset := by
  cases offset with
  | none =>
    rw [applyArg, Except.ok.injEq, eq_comm, summand, Option.elim_none, Int.sub_zero,
      and_iff_right hx]
  | some k => rw [applyArg, llSub, llResult_eq_ok, summand, Option.elim_some]

theorem takeScale_eq_ok {scale : TransformArg} (hx : inLongLong x) :
    applyArg scale (fun r k => llDiv r (ival k)) x = .ok y ↔
      factor scale ≠ 0 ∧ ¬ (x = -2 ^ 63 ∧ factor scale = -1) ∧ y = x.tdiv (factor scale) := by
  cases scale with
  | none =>
    rw [applyArg, Except.ok.injEq, eq_comm, factor, Option.elim_none, Int.tdiv_one]
    exact ⟨fun h => ⟨one_ne_zero, by simp, h⟩, fun h => h.2.2⟩
  | some k => rw [applyArg, llDiv_eq_ok hx, factor, Option.elim_some]

theorem takeShift_eq_ok {shift : TransformArg} :
    applyArg shift shiftIncoming x = .ok y ↔ ShiftCount shift ∧ y = unshifted shift x := by
  cases shift with
  | none =>
    rw [applyArg, Except.ok.injEq, eq_comm, unshifted, Option.elim_none]
    exact ⟨fun h => ⟨nofun, h⟩, And.right⟩
  | some s => rw [applyArg, shiftIncoming_eq_ok, shiftCount_some, unshifted, Option.elim_some]

theorem incomingInt_eq_ok (hbase : props.base = none) :
    incomingInt ld props (toSigned 64 w) = .ok y ↔ IncomingDefined props w ∧ y = restored props w := by
  unfold incomingInt IncomingDefined
  rw [hbase]
  simp only [Defined.bind_eq_ok, takeOffset_eq_ok (toSigned64_bounds w), takeShift_eq_ok]
  constructor
  · rintro ⟨d, ⟨hd, rfl⟩, q, hq, e, he, hcount, hy⟩
    cases he
    obtain ⟨hzero, hmin, rfl⟩ := (takeScale_eq_ok hd).mp hq
    exact ⟨⟨hd, hzero, hmin, hcount⟩, hy⟩
  · rintro ⟨⟨hd, hzero, hmin, hcount⟩, hy⟩
    exact ⟨_, ⟨hd, rfl⟩, _, (takeScale_eq_ok hd).mpr ⟨hzero, hmin, rfl⟩, _, rfl, hcount, hy⟩

/-- What a defined transformation returns and leaves. -/
def incomingOutcome (props : PropertyValue) (cres : CommandResult) (r : Int) :
    Bool × CommandResult :=
  if props.type.Holds r then (true, { cres with value := cres.value.store props.type.size r })
  else (false, cres)

theorem edgexTransformIncoming_integer (ht : props.type.isInteger = true)
    (hcres : cres.type = props.type) :
    edgexTransformIncoming ld cres props mappings =
      if transformsOn props then
        incomingInt ld props (toSigned 64 (readingOf props cres)) >>= fun r =>
          .ok (incomingOutcome props cres r)
      else .ok (true, cres) := by
  unfold edgexTransformIncoming
  rw [scalars_integer ht hcres]
  cases htype : props.type with
  | bool | string | binary | float32 | float64 =>
    rw [htype] at ht
    cases ht
  | uint8 | uint16 | uint32 | uint64 | int8 | int16 | int32 | int64 =>
    refine if_congr Iff.rfl ?_ rfl
    rw [Defined.ok_bind, getLLInt_eq ht, readingOf]
    refine congrArg _ (funext fun r => ?_)
    rw [setLLInt_eq ht, incomingOutcome]
    by_cases hholds : props.type.Holds r
    · rw [if_pos hholds, if_pos hholds]
      rfl
    · rw [if_neg hholds, if_neg hholds]
      rfl

theorem edgexTransformIncoming_off (ht : props.type.isInteger = true)
    (hcres : cres.type = props.type) (hoff : transformsOn props = false) :
    edgexTransformIncoming ld cres props mappings = .ok (true, cres) := by
  rw [edgexTransformIncoming_integer ht hcres, hoff]
  rfl

theorem edgexTransformIncoming_eq_ok {out : Bool × CommandResult}
    (ht : props.type.isInteger = true) (hcres : cres.type = props.type) (hbase : props.base = none)
    (hon : transformsOn props = true) :
    edgexTransformIncoming ld cres props mappings = .ok out ↔
      IncomingDefined props (readingOf props cres) ∧
        out = incomingOutcome props cres (restored props (readingOf props cres)) := by
  rw [edgexTransformIncoming_integer ht hcres, if_pos hon]
  simp only [Defined.bind_eq_ok, incomingInt_eq_ok hbase]
  constructor
  · rintro ⟨r, ⟨hdefined, hr⟩, hout⟩
    exact ⟨hdefined, by rw [← Except.ok.inj hout, hr]⟩
  · rintro ⟨hdefined, hout⟩
    exact ⟨_, ⟨hdefined, rfl⟩, by rw [hout]⟩

end Incoming

-- ---------------------------------------------------------------------------
-- Exact results
-- ---------------------------------------------------------------------------

/-- The number that the accumulator must hold for the shift to be exact: the one before a right
shift, else the one behind the shift. -/
def beforeRight (mask shift : TransformArg) (x : Int) : Int :=
  shift.elim (masked mask x) fun s =>
    if ival s < 0 then shifted shift (masked mask x) else masked mask x

/-- The exact result is stored when the type holds it; else the result becomes the text
`overflow`. -/
def StoresExactly {L : Type} (ld : LongDouble L) (props : PropertyValue) (cres : CommandResult)
    (mappings : NvPairs) : Prop :=
  edgexTransformOutgoing ld cres props mappings =
    .ok (outcome props cres (exactOutgoing props (readingOf props cres)))

/-- Product and sum stay in the accumulator, and mask and shift are exact there, or what they lose
does not matter. -/
def AccumulatorExact (props : PropertyValue) (v : Int) : Prop :=
  inLongLong (carried props.mask props.shift v * factor props.scale) ∧
    inLongLong (accumulated props v) ∧
    (inLongLong (beforeRight props.mask props.shift v) ∨ factor props.scale = 0 ∨
      ¬ props.type.Holds (accumulated props v) ∧ ¬ props.type.Holds (exactOutgoing props v))

section Exact

variable {L : Type} {ld : LongDouble L} {props : PropertyValue} {cres : CommandResult}
  {mappings : NvPairs} {mask shift : TransformArg} {v r r' : Int}

/-- Numbers with the same low bits that are shifted to the same number are equal. -/
theorem toSigned64_shift_eq_iff {m : Int} {n : Nat} (hn : n ≤ 63) :
    toSigned 64 m / 2 ^ n = m / 2 ^ n ↔ inLongLong m := by
  constructor
  · intro h
    obtain ⟨k, hk⟩ : (2 ^ 64 : Int) ∣ m - toSigned 64 m := Int.dvd_self_sub_bmod
    have hpow : (2 : Int) ^ 64 = 2 ^ (64 - n) * 2 ^ n := by
      rw [← pow_add, Nat.sub_add_cancel (by omega)]
    have hm : m = toSigned 64 m + k * 2 ^ (64 - n) * 2 ^ n := by
      rw [Int.mul_assoc, ← hpow]
      linarith
    have hquot : m / 2 ^ n = toSigned 64 m / 2 ^ n + k * 2 ^ (64 - n) := by
      conv_lhs => rw [hm]
      exact Int.add_mul_ediv_right _ _ (by positivity)
    have hzero : k = 0 := by
      have hprod : k * 2 ^ (64 - n) = 0 := by linarith
      exact (mul_eq_zero.mp hprod).resolve_right (by positivity)
    rw [hzero, Int.zero_mul, Int.zero_mul, Int.add_zero] at hm
    exact toSigned64_eq_iff.mp hm.symm
  · intro h
    rw [toSigned64_eq_iff.mpr h]

theorem carried_eq_iff (hshift : ShiftCount shift) :
    carried mask shift v = shifted shift (masked mask v) ↔
      inLongLong (beforeRight mask shift v) := by
  cases shift with
  | none =>
    rw [beforeRight, Option.elim_none, ← toSigned64_eq_iff, carried, shifted, Option.elim_none,
      Option.elim_none]
  | some s =>
    have hcount := shiftCount_some.mp hshift
    rw [carried, shifted, Option.elim_some, Option.elim_some]
    by_cases hneg : ival s < 0
    · have hbefore : beforeRight mask (some s) v = masked mask v * 2 ^ (-ival s).toNat := by
        rw [beforeRight, Option.elim_some, if_pos hneg, shifted, Option.elim_some, if_pos hneg]
      rw [if_pos hneg, if_pos hneg, hbefore, toSigned64_eq_iff]
    · have hbefore : beforeRight mask (some s) v = masked mask v := by
        rw [beforeRight, Option.elim_some, if_neg hneg]
      rw [if_neg hneg, if_neg hneg, hbefore, toSigned64_shift_eq_iff (by omega)]

theorem beforeRight_inLongLong (hmasked : inLongLong (masked mask v))
    (hshifted : inLongLong (shifted shift (masked mask v))) :
    inLongLong (beforeRight mask shift v) := by
  cases shift with
  | none =>
    rw [beforeRight, Option.elim_none]
    exact hmasked
  | some s =>
    rw [beforeRight, Option.elim_some]
    split
    · exact hshifted
    · exact hmasked

/-- What the shift loses matters unless it is multiplied by zero. -/
theorem exactOutgoing_eq_accumulated_iff (hshift : ShiftCount props.shift) :
    exactOutgoing props v = accumulated props v ↔
      inLongLong (beforeRight props.mask props.shift v) ∨ factor props.scale = 0 := by
  rw [← carried_eq_iff hshift, exactOutgoing, accumulated, add_left_inj, mul_eq_mul_right_iff,
    eq_comm]

/-- Outcomes differ as the numbers do, as far as the type holds them. -/
theorem outcome_eq_iff (ht : props.type.isInteger = true) (hcres : cres.type = props.type) :
    outcome props cres r = outcome props cres r' ↔
      r = r' ∨ ¬ props.type.Holds r ∧ ¬ props.type.Holds r' := by
  have hstring : cres.type ≠ .string := by
    rw [hcres]
    intro heq
    rw [heq] at ht
    cases ht
  have hstored {x : Int} (hx : props.type.Holds x) :
      outcome props cres x = { cres with value := cres.value.store props.type.size x } := if_pos hx
  have hnot {x : Int} (hx : ¬ props.type.Holds x) : outcome props cres x = cres.overflowed :=
    if_neg hx
  -- an overflow shows in the type
  have hdiffers {x : ResultValue} : ({ cres with value := x } : CommandResult) ≠ cres.overflowed :=
    fun heq => hstring (congrArg CommandResult.type heq)
  constructor
  · intro heq
    by_cases hr : props.type.Holds r
    · by_cases hr' : props.type.Holds r'
      · rw [hstored hr, hstored hr'] at heq
        have hread := congrArg (fun c => props.type.reading c.value) heq
        dsimp only at hread
        rw [PropertyType.reading_store ht hr, PropertyType.reading_store ht hr'] at hread
        exact .inl hread
      · rw [hstored hr, hnot hr'] at heq
        exact absurd heq hdiffers
    · by_cases hr' : props.type.Holds r'
      · rw [hnot hr, hstored hr'] at heq
        exact absurd heq.symm hdiffers
      · exact .inr ⟨hr, hr'⟩
  · rintro (rfl | ⟨hr, hr'⟩)
    · rfl
    · rw [hnot hr, hnot hr']

/-- Without transformations the exact result is the reading. -/
theorem exactOutgoing_off (hoff : transformsOn props = false) : exactOutgoing props v = v := by
  simp only [transformsOn, Bool.or_eq_false_iff, Option.isSome_eq_false_iff,
    Option.isNone_iff_eq_none] at hoff
  obtain ⟨⟨⟨⟨hoffset, hscale⟩, -⟩, hshift⟩, hmask⟩ := hoff
  simp [exactOutgoing, hoffset, hscale, hshift, hmask, shifted, masked, factor, summand]

theorem outcome_reading (ht : props.type.isInteger = true) :
    outcome props cres (readingOf props cres) = cres := by
  rw [outcome, readingOf, if_pos (PropertyType.holds_reading ht cres.value),
    PropertyType.store_reading]

theorem storesExactly_off (ht : props.type.isInteger = true) (hcres : cres.type = props.type)
    (hoff : transformsOn props = false) : StoresExactly ld props cres mappings := by
  unfold StoresExactly
  rw [exactOutgoing_off hoff, outcome_reading ht]
  exact edgexTransformOutgoing_off ht hcres hoff

theorem AccumulatorExact.storesExactly (ht : props.type.isInteger = true)
    (hcres : cres.type = props.type) (hbase : props.base = none) (hshift : ShiftCount props.shift)
    (h : AccumulatorExact props (readingOf props cres)) : StoresExactly ld props cres mappings := by
  by_cases hon : transformsOn props = true
  · obtain ⟨hproduct, hsum, hlost⟩ := h
    refine (edgexTransformOutgoing_eq_ok ht hcres hbase hon).mpr ⟨⟨hshift, hproduct, hsum⟩, ?_⟩
    rw [outcome_eq_iff ht hcres, exactOutgoing_eq_accumulated_iff hshift, or_assoc]
    exact hlost.imp_right (Or.imp_right And.symm)
  · exact storesExactly_off ht hcres (by simpa using hon)

theorem storesExactly_iff (ht : props.type.isInteger = true) (hcres : cres.type = props.type)
    (hbase : props.base = none) (hshift : ShiftCount props.shift) :
    StoresExactly ld props cres mappings ↔
      (transformsOn props = true → AccumulatorExact props (readingOf props cres)) := by
  by_cases hon : transformsOn props = true
  · refine ⟨fun h _ => ?_, fun h => (h hon).storesExactly ht hcres hbase hshift⟩
    obtain ⟨⟨-, hproduct, hsum⟩, hres⟩ :=
      (edgexTransformOutgoing_eq_ok ht hcres hbase hon).mp h
    rw [outcome_eq_iff ht hcres, exactOutgoing_eq_accumulated_iff hshift, or_assoc] at hres
    exact ⟨hproduct, hsum, hres.imp_right (Or.imp_right And.symm)⟩
  · exact iff_of_true (storesExactly_off ht hcres (by simpa using hon)) fun h => absurd h hon

end Exact

/-! ### A counter -/

/-- The property of a counter with these transformations. -/
def counterValue (type : PropertyType) (mask shift scale offset : Option Int) : PropertyValue where
  type := type
  readable := true
  writable := true
  minimum := []
  maximum := []
  defaultvalue := []
  lsb := []
  mask := mask.map UInt64.ofInt
  shift := shift.map UInt64.ofInt
  scale := scale.map UInt64.ofInt
  offset := offset.map UInt64.ofInt
  base := none
  assertion := []
  precision := []
  mediaType := []
  floatAsBinary := true

/-- A reading of it. -/
def counterReading (type : PropertyType) (bits : UInt64) : CommandResult := ⟨0, type, ⟨bits, [], []⟩⟩

/-- 300 ticks, a quarter of them, ten times as much, less five. -/
theorem storesExactly_ticks :
    StoresExactly LongDouble.empty (counterValue .int16 none (some 2) (some 10) (some (-5)))
      (counterReading .int16 300) [] := by
  refine (storesExactly_iff rfl rfl rfl (by decide)).mpr fun _ =>
    ⟨by decide +kernel, by decide +kernel, .inl ?_⟩
  decide +kernel

/-- The upper half of `Uint64` is flagged, whatever is added; and so is a sum that would fit, by an
undefined product. -/
theorem not_storesExactly_upperHalf :
    ¬ StoresExactly LongDouble.empty (counterValue .uint64 none none none (some 0))
        (counterReading .uint64 (2 ^ 63)) [] ∧
      ¬ StoresExactly LongDouble.empty (counterValue .int64 none none (some 2) (some (-2 ^ 63)))
        (counterReading .int64 (2 ^ 62)) [] := by
  constructor
  · intro h
    have hflagged : edgexTransformOutgoing LongDouble.empty (counterReading .uint64 (2 ^ 63))
        (counterValue .uint64 none none none (some 0)) [] =
          .ok (counterReading .uint64 (2 ^ 63)).overflowed := by
      decide +kernel
    have hsame := Except.ok.inj (hflagged.symm.trans h)
    revert hsame
    decide +kernel
  · intro h
    have hundefined : edgexTransformOutgoing LongDouble.empty (counterReading .int64 (2 ^ 62))
        (counterValue .int64 none none (some 2) (some (-2 ^ 63))) [] = .error .overflow := by
      decide +kernel
    cases hundefined.symm.trans h

-- ---------------------------------------------------------------------------
-- Defined arithmetic
-- ---------------------------------------------------------------------------

section Definedness

variable {L : Type} {ld : LongDouble L} {props : PropertyValue} {cres : CommandResult}
  {mappings : NvPairs}

/-- Both transformations are defined exactly for counts from -63 to 63, numbers that stay in the
accumulator, and a factor that is not zero, nor -1 where the least number would be divided. -/
theorem transforms_defined_iff (ht : props.type.isInteger = true) (hcres : cres.type = props.type)
    (hbase : props.base = none) :
    ((∃ res, edgexTransformOutgoing ld cres props mappings = .ok res) ∧
        ∃ out, edgexTransformIncoming ld cres props mappings = .ok out) ↔
      (transformsOn props = true → OutgoingDefined props (readingOf props cres) ∧
        IncomingDefined props (readingOf props cres)) := by
  by_cases hon : transformsOn props = true
  · simp only [edgexTransformOutgoing_eq_ok ht hcres hbase hon,
      edgexTransformIncoming_eq_ok ht hcres hbase hon, hon, forall_const]
    exact and_congr ⟨fun ⟨_, h, _⟩ => h, fun h => ⟨_, h, rfl⟩⟩
      ⟨fun ⟨_, h, _⟩ => h, fun h => ⟨_, h, rfl⟩⟩
  · have hoff : transformsOn props = false := by simpa using hon
    exact iff_of_true ⟨⟨_, edgexTransformOutgoing_off ht hcres hoff⟩,
      _, edgexTransformIncoming_off ht hcres hoff⟩ fun h => absurd h hon

/-- A scaled and shifted counter. -/
theorem transforms_defined_ticks :
    (∃ res, edgexTransformOutgoing LongDouble.empty (counterReading .int16 300)
        (counterValue .int16 none (some 2) (some 10) (some (-5))) [] = .ok res) ∧
      ∃ out, edgexTransformIncoming LongDouble.empty (counterReading .int16 300)
        (counterValue .int16 none (some 2) (some 10) (some (-5))) [] = .ok out :=
  (transforms_defined_iff rfl rfl rfl).mpr fun _ => by
    unfold OutgoingDefined IncomingDefined
    decide +kernel

end Definedness

/-- The document of a property with one transformation. -/
def transformDocument (name argument : String) : Members :=
  [(lit "type", .string (lit "Int16")), (lit name, .string (lit argument))]

/-- The reader lets a scale of zero pass, and a shift by 64. -/
theorem propertyvalueRead_undefined :
    (∃ props, propertyvalueRead ⟨fun _ => none, fun _ => []⟩
        (some (transformDocument "scale" "0")) = .ok (some props) ∧
      edgexTransformIncoming LongDouble.empty (counterReading .int16 1) props [] =
        .error .divisionByZero) ∧
      ∃ props, propertyvalueRead ⟨fun _ => none, fun _ => []⟩
        (some (transformDocument "shift" "64")) = .ok (some props) ∧
      edgexTransformOutgoing LongDouble.empty (counterReading .int16 1) props [] =
        .error .shiftCount :=
  ⟨⟨_, rfl, by decide⟩, _, rfl, by decide⟩

end Zigbee
