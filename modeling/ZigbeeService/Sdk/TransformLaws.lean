-- SUMMARY: Incoming transformations undo outgoing ones; outgoing transformations against the documented order.
import ZigbeeService.Sdk.TransformExact

/-!
# Inverse and order of the transformations

An incoming transformation takes back offset, scale and shift, in this order. The documentation has
base, scale, offset, mask and shift applied in that order to a reading; the code masks and shifts
first.
-/

namespace Zigbee

open CLib

-- ---------------------------------------------------------------------------
-- The inverse
-- ---------------------------------------------------------------------------

/-- No exact result on the way leaves the accumulator or, at the end, the type, and no bit that is
set is shifted out. -/
structure Reversible (props : PropertyValue) (v : Int) : Prop where
  reading : v < 2 ^ 63
  shift : inLongLong (shifted props.shift v)
  product : inLongLong (shifted props.shift v * factor props.scale)
  sum : inLongLong (exactOutgoing props v)
  result : props.type.Holds (exactOutgoing props v)
  bits : ∀ s ∈ props.shift, 0 ≤ ival s → 2 ^ (ival s).toNat ∣ v

section Inverse

variable {L : Type} {ld : LongDouble L} {props : PropertyValue} {cres : CommandResult}
  {mappings : NvPairs} {shift : TransformArg} {v : Int}

theorem masked_none (x : Int) : masked none x = x := rfl

/-- Shifting back restores a number whose low bits were clear. -/
theorem unshifted_shifted (hv : inLongLong v)
    (hbits : ∀ s ∈ shift, 0 ≤ ival s → 2 ^ (ival s).toNat ∣ v) :
    unshifted shift (shifted shift v) = v := by
  cases shift with
  | none => rfl
  | some s =>
    rw [unshifted, shifted, Option.elim_some, Option.elim_some]
    by_cases hneg : ival s < 0
    · rw [if_pos hneg, if_pos hneg]
      exact Int.mul_ediv_cancel _ (by positivity)
    · rw [if_neg hneg, if_neg hneg, Int.ediv_mul_cancel (hbits s rfl (by omega))]
      exact toSigned64_eq_iff.mpr hv

/-- The accumulator is exact. -/
theorem Reversible.carried_eq (h : Reversible props v) (hmask : props.mask = none)
    (hshift : ShiftCount props.shift) (hv : inLongLong v) :
    carried props.mask props.shift v = shifted props.shift v := by
  refine ((carried_eq_iff hshift).mpr ?_).trans (by rw [hmask, masked_none])
  rw [hmask]
  exact beforeRight_inLongLong hv h.shift

theorem Reversible.accumulated_eq (h : Reversible props v) (hmask : props.mask = none)
    (hshift : ShiftCount props.shift) (hv : inLongLong v) :
    accumulated props v = exactOutgoing props v := by
  rw [accumulated, h.carried_eq hmask hshift hv, exactOutgoing, hmask, masked_none]

/-- The outgoing transformation is defined. -/
theorem Reversible.outgoingDefined (h : Reversible props v) (hmask : props.mask = none)
    (hshift : ShiftCount props.shift) (hv : inLongLong v) : OutgoingDefined props v := by
  refine ⟨hshift, ?_, ?_⟩
  · rw [h.carried_eq hmask hshift hv]
    exact h.product
  · rw [h.accumulated_eq hmask hshift hv]
    exact h.sum

/-- On its result the incoming one is defined, and restores the number. -/
theorem Reversible.incoming (h : Reversible props v) (hmask : props.mask = none)
    (hshift : ShiftCount props.shift) (hscale : factor props.scale ≠ 0) (hv : inLongLong v) :
    IncomingDefined props (exactOutgoing props v) ∧ restored props (exactOutgoing props v) = v := by
  have hreduced : reduced props (exactOutgoing props v) =
      shifted props.shift v * factor props.scale := by
    rw [reduced, toSigned64_eq_iff.mpr h.sum, exactOutgoing, hmask, masked_none,
      Int.add_sub_cancel]
  refine ⟨⟨?_, hscale, ?_, hshift⟩, ?_⟩
  · rw [hreduced]
    exact h.product
  · -- the least number is not minus one times a number of the range
    rintro ⟨hmin, hfactor⟩
    have hlt := h.shift.2
    rw [hreduced, hfactor] at hmin
    omega
  · rw [restored, hreduced, Int.mul_tdiv_cancel _ hscale]
    exact unshifted_shifted hv h.bits

/-- The outgoing transformation succeeds, and the incoming one restores the reading. -/
theorem incoming_undoes_outgoing (ht : props.type.isInteger = true) (hcres : cres.type = props.type)
    (hbase : props.base = none) (hmask : props.mask = none) (hshift : ShiftCount props.shift)
    (hscale : factor props.scale ≠ 0) (h : Reversible props (readingOf props cres)) :
    ∃ res, edgexTransformOutgoing ld cres props mappings = .ok res ∧ res.type = props.type ∧
      readingOf props res = exactOutgoing props (readingOf props cres) ∧
      edgexTransformIncoming ld res props mappings = .ok (true, cres) := by
  have hholds : props.type.Holds (readingOf props cres) := PropertyType.holds_reading ht cres.value
  have hv := hholds.inLongLong ht h.reading
  by_cases hon : transformsOn props = true
  · obtain ⟨res, hres⟩ : ∃ res : CommandResult, res = { cres with
        value := cres.value.store props.type.size (exactOutgoing props (readingOf props cres)) } :=
      ⟨_, rfl⟩
    have hread : readingOf props res = exactOutgoing props (readingOf props cres) := by
      rw [hres]
      exact PropertyType.reading_store ht h.result cres.value
    have htype : res.type = props.type := by rw [hres, hcres]
    refine ⟨res, ?_, htype, hread, ?_⟩
    · refine (edgexTransformOutgoing_eq_ok ht hcres hbase hon).mpr
        ⟨h.outgoingDefined hmask hshift hv, ?_⟩
      rw [h.accumulated_eq hmask hshift hv, outcome, if_pos h.result, hres]
    · obtain ⟨hdefined, hrestored⟩ := h.incoming hmask hshift hscale hv
      refine (edgexTransformIncoming_eq_ok ht htype hbase hon).mpr ⟨by rwa [hread], ?_⟩
      rw [hread, hrestored, incomingOutcome, if_pos hholds, hres]
      dsimp only
      rw [ResultValue.store_store _ (PropertyType.size_le _), readingOf,
        PropertyType.store_reading]
  · have hoff : transformsOn props = false := by simpa using hon
    exact ⟨cres, edgexTransformOutgoing_off ht hcres hoff, hcres, (exactOutgoing_off hoff).symm,
      edgexTransformIncoming_off ht hcres hoff⟩

/-- A counter whose ticks come in fours. -/
theorem incoming_undoes_outgoing_ticks :
    ∃ res, edgexTransformOutgoing LongDouble.empty (counterReading .int16 300)
        (counterValue .int16 none (some 2) (some 10) (some (-5))) [] = .ok res ∧
      res.type = .int16 ∧
      readingOf (counterValue .int16 none (some 2) (some 10) (some (-5))) res =
        exactOutgoing (counterValue .int16 none (some 2) (some 10) (some (-5)))
          (readingOf (counterValue .int16 none (some 2) (some 10) (some (-5)))
            (counterReading .int16 300)) ∧
      edgexTransformIncoming LongDouble.empty res
        (counterValue .int16 none (some 2) (some 10) (some (-5))) [] =
          .ok (true, counterReading .int16 300) :=
  incoming_undoes_outgoing rfl rfl rfl rfl (by decide) (by decide)
    { reading := by decide +kernel
      shift := by decide +kernel
      product := by decide +kernel
      sum := by decide +kernel
      result := by decide +kernel
      bits := fun s hs _ => by
        cases hs
        decide +kernel }

end Inverse

-- ---------------------------------------------------------------------------
-- The documented order
-- ---------------------------------------------------------------------------

/-- The exact result of scale, offset, mask and shift, in the order of the documentation. -/
def documentedOutgoing (props : PropertyValue) (v : Int) : Int :=
  shifted props.shift (masked props.mask (v * factor props.scale + summand props.offset))

/-- No step overflows, in the one order or the other. -/
structure NoOverflow (props : PropertyValue) (v : Int) : Prop where
  reading : inLongLong v
  product : inLongLong (v * factor props.scale)
  sum : inLongLong (v * factor props.scale + summand props.offset)
  result : inLongLong (documentedOutgoing props v)
  shift : inLongLong (shifted props.shift (masked props.mask v))
  product' : inLongLong (shifted props.shift (masked props.mask v) * factor props.scale)
  result' : inLongLong (exactOutgoing props v)

/-- The result is that of the documented order. -/
def FollowsDocument {L : Type} (ld : LongDouble L) (props : PropertyValue) (cres : CommandResult)
    (mappings : NvPairs) : Prop :=
  edgexTransformOutgoing ld cres props mappings =
    .ok (outcome props cres (documentedOutgoing props (readingOf props cres)))

/-- Both orders lead to the same number, or to numbers that the type does not hold. -/
def OrderFree (props : PropertyValue) (v : Int) : Prop :=
  exactOutgoing props v = documentedOutgoing props v ∨
    ¬ props.type.Holds (exactOutgoing props v) ∧ ¬ props.type.Holds (documentedOutgoing props v)

/-- Which transformations are enabled for which type. -/
structure Combination (t : PropertyType) (mask shift scale offset : Bool) (props : PropertyValue) :
    Prop where
  type : props.type = t
  mask : props.mask.isSome = mask
  shift : props.shift.isSome = shift
  scale : props.scale.isSome = scale
  offset : props.offset.isSome = offset
  base : props.base = none
  count : ShiftCount props.shift

section Order

variable {L : Type} {ld : LongDouble L} {props : PropertyValue} {cres : CommandResult}
  {mappings : NvPairs} {t : PropertyType} {v : Int}

/-- Masking a number of the accumulator gives one. -/
theorem masked_inLongLong {mask : TransformArg} (hv : inLongLong v) :
    inLongLong (masked mask v) := by
  cases mask with
  | none => exact hv
  | some m => exact land_inLongLong hv (toSigned64_bounds _)

theorem NoOverflow.accumulatorExact (h : NoOverflow props v) (hshift : ShiftCount props.shift) :
    AccumulatorExact props v := by
  have hbefore := beforeRight_inLongLong (masked_inLongLong h.reading) h.shift
  have hcarried := (carried_eq_iff hshift).mpr hbefore
  refine ⟨?_, ?_, .inl hbefore⟩
  · rw [hcarried]
    exact h.product'
  · rw [accumulated, hcarried]
    exact h.result'

/-- Where nothing overflows, the documented result is there exactly when both orders lead to the
same one. -/
theorem NoOverflow.followsDocument_iff_orderFree (ht : props.type.isInteger = true)
    (hcres : cres.type = props.type) (hbase : props.base = none) (hshift : ShiftCount props.shift)
    (h : NoOverflow props (readingOf props cres)) :
    FollowsDocument ld props cres mappings ↔ OrderFree props (readingOf props cres) := by
  have hexact : edgexTransformOutgoing ld cres props mappings =
      .ok (outcome props cres (exactOutgoing props (readingOf props cres))) :=
    (h.accumulatorExact hshift).storesExactly ht hcres hbase hshift
  unfold FollowsDocument OrderFree
  rw [hexact, Except.ok.injEq, outcome_eq_iff ht hcres]

/-- A mask or a shift alone, or a scale or an offset alone, comes in one order only. -/
theorem Combination.exact_eq {mask shift scale offset : Bool}
    (h : Combination t mask shift scale offset props)
    (halone : (mask = false ∧ shift = false) ∨ (scale = false ∧ offset = false)) :
    exactOutgoing props v = documentedOutgoing props v := by
  have hnone {arg : TransformArg} {b : Bool} (harg : arg.isSome = b) (hb : b = false) :
      arg = none := by
    rw [hb] at harg
    simpa using harg
  rcases halone with ⟨hm, hs⟩ | ⟨hk, ho⟩
  · rw [exactOutgoing, documentedOutgoing, hnone h.mask hm, hnone h.shift hs]
    rfl
  · rw [exactOutgoing, documentedOutgoing, hnone h.scale hk, hnone h.offset ho]
    simp [factor, summand]

/-! ### Where the order matters -/

/-- Arguments for which a transformation of bits and one of numbers do not commute. -/
def crossedValue (t : PropertyType) (mask shift scale offset : Bool) : PropertyValue :=
  counterValue t (if mask then some (if shift then -1 else 1) else none)
    (if shift then some 1 else none) (if scale then some 2 else none)
    (if offset then some (if scale then 0 else 1) else none)

/-- A reading that shows it. -/
def crossedReading (t : PropertyType) (shift scale : Bool) : CommandResult :=
  counterReading t (if shift && !scale then 2 else 1)

theorem crossedValue_combination (t : PropertyType) (mask shift scale offset : Bool) :
    Combination t mask shift scale offset (crossedValue t mask shift scale offset) where
  type := rfl
  mask := by cases mask <;> rfl
  shift := by cases shift <;> rfl
  scale := by cases scale <;> rfl
  offset := by cases offset <;> rfl
  base := rfl
  count := by
    cases shift with
    | false => exact fun _ hs => nomatch hs
    | true => exact shiftCount_some.mpr (by decide)

instance (props : PropertyValue) (v : Int) : Decidable (NoOverflow props v) :=
  decidable_of_iff (inLongLong v ∧ inLongLong (v * factor props.scale) ∧
      inLongLong (v * factor props.scale + summand props.offset) ∧
      inLongLong (documentedOutgoing props v) ∧
      inLongLong (shifted props.shift (masked props.mask v)) ∧
      inLongLong (shifted props.shift (masked props.mask v) * factor props.scale) ∧
      inLongLong (exactOutgoing props v))
    ⟨fun ⟨h₁, h₂, h₃, h₄, h₅, h₆, h₇⟩ => ⟨h₁, h₂, h₃, h₄, h₅, h₆, h₇⟩,
      fun h => ⟨h.reading, h.product, h.sum, h.result, h.shift, h.product', h.result'⟩⟩

instance (props : PropertyValue) (v : Int) : Decidable (OrderFree props v) :=
  inferInstanceAs (Decidable (_ ∨ _))

theorem crossedValue_orders (ht : t.isInteger = true) : ∀ mask shift scale offset : Bool,
    (mask || shift) = true → (scale || offset) = true →
      NoOverflow (crossedValue t mask shift scale offset)
          (readingOf (crossedValue t mask shift scale offset) (crossedReading t shift scale)) ∧
        ¬ OrderFree (crossedValue t mask shift scale offset)
          (readingOf (crossedValue t mask shift scale offset) (crossedReading t shift scale)) := by
  cases t with
  | bool | string | binary | float32 | float64 => cases ht
  | uint8 | uint16 | uint32 | uint64 | int8 | int16 | int32 | int64 => decide +kernel

/-- The documented result is there exactly when both orders lead to the same one; which is so for
all arguments and readings only without a mask and a shift, or without a scale and an offset. -/
theorem followsDocument_iff (ht : t.isInteger = true) (mask shift scale offset : Bool) :
    (∀ props cres, Combination t mask shift scale offset props → cres.type = t →
        NoOverflow props (readingOf props cres) →
        (FollowsDocument ld props cres mappings ↔ OrderFree props (readingOf props cres))) ∧
      ((∀ props cres, Combination t mask shift scale offset props → cres.type = t →
          NoOverflow props (readingOf props cres) → FollowsDocument ld props cres mappings) ↔
        (mask = false ∧ shift = false) ∨ (scale = false ∧ offset = false)) := by
  have hfollows {props : PropertyValue} {cres : CommandResult}
      (h : Combination t mask shift scale offset props) (hcres : cres.type = t)
      (hno : NoOverflow props (readingOf props cres)) :
      FollowsDocument ld props cres mappings ↔ OrderFree props (readingOf props cres) :=
    hno.followsDocument_iff_orderFree (by rw [h.type, ht]) (by rw [h.type, hcres]) h.base h.count
  refine ⟨fun props cres => hfollows, fun hall => ?_, fun halone props cres h hcres hno => ?_⟩
  · -- both kinds together: the crossed reading comes out otherwise
    by_contra hboth
    have hbits : (mask || shift) = true := by
      cases mask <;> cases shift <;> simp_all
    have hnumbers : (scale || offset) = true := by
      cases scale <;> cases offset <;> simp_all
    obtain ⟨hno, hcrossed⟩ := crossedValue_orders ht mask shift scale offset hbits hnumbers
    have hcombination := crossedValue_combination t mask shift scale offset
    exact hcrossed ((hfollows hcombination rfl hno).mp (hall _ _ hcombination rfl hno))
  · exact (hfollows h hcres hno).mpr (.inl (h.exact_eq halone))

/-- A masked and shifted counter. -/
theorem followsDocument_maskShift :
    FollowsDocument LongDouble.empty (counterValue .int16 (some 255) (some 2) none none)
      (counterReading .int16 300) [] :=
  ((followsDocument_iff rfl true true false false).2.mpr (.inr ⟨rfl, rfl⟩)) _ _
    ⟨rfl, rfl, rfl, rfl, rfl, rfl, by decide⟩ rfl (by decide +kernel)

/-- One tick, in pairs, twice as much: the documentation has one, the code none. -/
theorem not_followsDocument_crossed :
    NoOverflow (counterValue .int16 none (some 1) (some 2) none)
        (readingOf (counterValue .int16 none (some 1) (some 2) none) (counterReading .int16 1)) ∧
      ¬ FollowsDocument LongDouble.empty (counterValue .int16 none (some 1) (some 2) none)
        (counterReading .int16 1) [] := by
  refine ⟨by decide +kernel, fun h => ?_⟩
  have hzero : edgexTransformOutgoing LongDouble.empty (counterReading .int16 1)
      (counterValue .int16 none (some 1) (some 2) none) [] = .ok (counterReading .int16 0) := by
    decide +kernel
  have hsame := Except.ok.inj (hzero.symm.trans h)
  revert hsame
  decide +kernel

end Order

end Zigbee
