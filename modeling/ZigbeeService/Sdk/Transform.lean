-- SUMMARY: The transformations between the readings of a driver and the values of the service (transform.c).
import ZigbeeService.Lib.Arith
import ZigbeeService.Rest.Records

/-!
# Transformations

`edgex_transform_outgoing` and `edgex_transform_incoming`. They work on the member of the result that
the type of the property names, whatever the type of the result: where that member overlays the
pointer of a string or a blob, or a string is expected where there is none, the outcome is undefined.
-/

namespace Zigbee

open CLib

/-- The `long double` arithmetic of the C library. Floats and doubles are bit patterns; the
conversions to `long long` have no result for a value outside it. -/
structure LongDouble (L : Type) where
  ofFloat : UInt32 → L
  ofDouble : UInt64 → L
  ofInt : Int → L
  toFloat : L → UInt32
  toDouble : L → UInt64
  /-- `x <= FLT_MAX && x >= -FLT_MAX`. -/
  inFloat : L → Bool
  /-- `x <= DBL_MAX && x >= -DBL_MAX`. -/
  inDouble : L → Bool
  add : L → L → L
  sub : L → L → L
  mul : L → L → L
  div : L → L → L
  powl : L → L → L
  logl : L → L
  truncate : L → Option Int
  llroundl : L → Option Int

/-- The arithmetic of a library without floats. -/
def LongDouble.empty : LongDouble Unit where
  ofFloat _ := ()
  ofDouble _ := ()
  ofInt _ := ()
  toFloat _ := 0
  toDouble _ := 0
  inFloat _ := false
  inDouble _ := false
  add _ _ := ()
  sub _ _ := ()
  mul _ _ := ()
  div _ _ := ()
  powl _ _ := ()
  logl _ := ()
  truncate _ := none
  llroundl _ := none

/-- `transformsOn`. -/
def transformsOn (pv : PropertyValue) : Bool :=
  pv.offset.isSome || pv.scale.isSome || pv.base.isSome || pv.shift.isSome || pv.mask.isSome

/-- `checkMapping`. -/
def checkMapping (map : NvPairs) (key : Text) : Option Text :=
  (map.find? fun pair => pair.1 = key).map Prod.snd

/-! ## Members of the union -/

/-- The storage of a result whose members overlay no pointer. -/
def scalars (cres : CommandResult) : Defined ResultValue :=
  match cres.type with
  | .string | .binary => .error .pointerBits
  | _ => .ok cres.value

/-- `value.string_result`. -/
def stringResult (cres : CommandResult) : Defined Text :=
  match cres.type with
  | .string => .ok cres.value.string
  | _ => .error .pointerBits

section Float

variable {L : Type} (ld : LongDouble L)

/-- `getLongDouble`. -/
def getLongDouble (value : ResultValue) (props : PropertyValue) : L :=
  if props.type = .float64 then ld.ofDouble (UInt64.ofNat (value.load 8))
  else ld.ofFloat (UInt32.ofNat (value.load 4))

/-- `setLongDouble`; `none` when it returns false. -/
def setLongDouble (ldval : L) (value : ResultValue) (props : PropertyValue) : Option ResultValue :=
  if props.type = .float64 then
    if ld.inDouble ldval then some (value.store 8 (ld.toDouble ldval).toNat) else none
  else
    if ld.inFloat ldval then some (value.store 4 (ld.toFloat ldval).toNat) else none

end Float

/-- `getLLInt`. It is only called for integer types. -/
def getLLInt (value : ResultValue) (props : PropertyValue) : Int :=
  match props.type with
  | .uint8 => value.load 1
  | .uint16 => value.load 2
  | .uint32 => value.load 4
  | .uint64 => toSigned 64 (value.load 8)
  | .int8 => toSigned 8 (value.load 1)
  | .int16 => toSigned 16 (value.load 2)
  | .int32 => toSigned 32 (value.load 4)
  | .int64 => toSigned 64 (value.load 8)
  | _ => 0

/-- One case of `setLLInt`: a member of `k` bytes for the numbers from `lo` to `hi`. -/
def setMember (llival : Int) (value : ResultValue) (k : Nat) (lo hi : Int) : Option ResultValue :=
  if llival ≥ lo ∧ llival ≤ hi then some (value.store k llival) else none

/-- `setLLInt`; `none` when it returns false. -/
def setLLInt (llival : Int) (value : ResultValue) (props : PropertyValue) : Option ResultValue :=
  match props.type with
  | .uint8 => setMember llival value 1 0 (2 ^ 8 - 1)
  | .uint16 => setMember llival value 2 0 (2 ^ 16 - 1)
  | .uint32 => setMember llival value 4 0 (2 ^ 32 - 1)
  | .uint64 => setMember llival value 8 0 (2 ^ 64 - 1)
  | .int8 => setMember llival value 1 (-2 ^ 7) (2 ^ 7 - 1)
  | .int16 => setMember llival value 2 (-2 ^ 15) (2 ^ 15 - 1)
  | .int32 => setMember llival value 4 (-2 ^ 31) (2 ^ 31 - 1)
  | .int64 => setMember llival value 8 (-2 ^ 63) (2 ^ 63 - 1)
  | _ => none

/-! ## The arithmetic -/

/-- `if (arg.enabled) result = op (result, arg.value)`. -/
def applyArg {α : Type} (arg : TransformArg) (op : α → UInt64 → Defined α) (result : α) :
    Defined α :=
  match arg with
  | none => .ok result
  | some value => op result value

/-- A conversion to `long long`. -/
def converted : Option Int → Defined Int
  | some x => .ok x
  | none => .error .conversion

/-- A shift by a count that goes to the right when it is positive, else to the left. -/
def shiftOutgoing (result : Int) (value : UInt64) : Defined Int :=
  if ival value < 0 then do llShiftLeft result (← llNeg (ival value))
  else llShiftRight result (ival value)

/-- A shift by a count that goes to the left when it is positive, else to the right. -/
def shiftIncoming (result : Int) (value : UInt64) : Defined Int :=
  if ival value < 0 then do llShiftRight result (← llNeg (ival value))
  else llShiftLeft result (ival value)

section Arithmetic

variable {L : Type} (ld : LongDouble L)

/-- The steps of `edgex_transform_outgoing` on a floating value. -/
def outgoingFloat (props : PropertyValue) (result : L) : L :=
  let dval := ld.ofDouble
  let result := props.base.elim result fun v => ld.powl (dval v) result
  let result := props.scale.elim result fun v => ld.mul result (dval v)
  props.offset.elim result fun v => ld.add result (dval v)

/-- The steps of `edgex_transform_outgoing` on an integer. -/
def outgoingInt (props : PropertyValue) (result : Int) : Defined Int := do
  let result ← applyArg props.mask (fun r v => .ok (llAnd r (ival v))) result
  let result ← applyArg props.shift shiftOutgoing result
  let result ← applyArg props.base
    (fun r v => converted (ld.truncate (ld.powl (ld.ofInt (ival v)) (ld.ofInt r)))) result
  let result ← applyArg props.scale (fun r v => llMul r (ival v)) result
  applyArg props.offset (fun r v => llAdd r (ival v)) result

/-- The steps of `edgex_transform_incoming` on a floating value. -/
def incomingFloat (props : PropertyValue) (result : L) : L :=
  let dval := ld.ofDouble
  let result := props.offset.elim result fun v => ld.sub result (dval v)
  let result := props.scale.elim result fun v => ld.div result (dval v)
  props.base.elim result fun v => ld.div (ld.logl result) (ld.logl (dval v))

/-- The steps of `edgex_transform_incoming` on an integer. The mask is not applied. -/
def incomingInt (props : PropertyValue) (result : Int) : Defined Int := do
  let result ← applyArg props.offset (fun r v => llSub r (ival v)) result
  let result ← applyArg props.scale (fun r v => llDiv r (ival v)) result
  let result ← applyArg props.base
    (fun r v => converted (ld.llroundl
      (ld.div (ld.logl (ld.ofInt r)) (ld.logl (ld.ofInt (ival v)))))) result
  applyArg props.shift shiftIncoming result

end Arithmetic

/-! ## The transformations -/

/-- What a result becomes when the transformed number does not fit. -/
def CommandResult.overflowed (cres : CommandResult) : CommandResult :=
  { cres with type := .string, value := { cres.value with string := lit "overflow" } }

/-- The String case of both transformations. -/
def remap (cres : CommandResult) (mappings : NvPairs) : Defined CommandResult :=
  if mappings = [] then .ok cres
  else do
    let key ← stringResult cres
    match checkMapping mappings key with
    | some remap => return { cres with value := { cres.value with string := remap } }
    | none => return cres

section Transform

variable {L : Type} (ld : LongDouble L)

/-- `edgex_transform_outgoing`. -/
def edgexTransformOutgoing (cres : CommandResult) (props : PropertyValue) (mappings : NvPairs) :
    Defined CommandResult :=
  match props.type with
  | .float32 | .float64 =>
    if transformsOn props then do
      let value ← scalars cres
      let result := outgoingFloat ld props (getLongDouble ld value props)
      match setLongDouble ld result value props with
      | some value => return { cres with value }
      | none => return cres.overflowed
    else return cres
  | .uint8 | .uint16 | .uint32 | .uint64 | .int8 | .int16 | .int32 | .int64 =>
    if transformsOn props then do
      let value ← scalars cres
      let result ← outgoingInt ld props (getLLInt value props)
      match setLLInt result value props with
      | some value => return { cres with value }
      | none => return cres.overflowed
    else return cres
  | .string => remap cres mappings
  | _ => return cres

/-- `edgex_transform_incoming`: whether it succeeded, and the result as it leaves it. -/
def edgexTransformIncoming (cres : CommandResult) (props : PropertyValue) (mappings : NvPairs) :
    Defined (Bool × CommandResult) :=
  match props.type with
  | .float32 | .float64 =>
    if transformsOn props then do
      -- `populateValue` has stored a number here, as the type of the property asks
      let value ← scalars cres
      let result := incomingFloat ld props (getLongDouble ld value props)
      match setLongDouble ld result value props with
      | some value => return (true, { cres with value })
      | none => return (false, cres)
    else return (true, cres)
  | .uint8 | .uint16 | .uint32 | .uint64 | .int8 | .int16 | .int32 | .int64 =>
    if transformsOn props then do
      let value ← scalars cres
      let result ← incomingInt ld props (getLLInt value props)
      match setLLInt result value props with
      | some value => return (true, { cres with value })
      | none => return (false, cres)
    else return (true, cres)
  | .string => do return (true, ← remap cres mappings)
  | _ => return (true, cres)

/-! ## Frames -/

variable {ld} {cres res : CommandResult} {props : PropertyValue} {mappings : NvPairs}

theorem remap_origin (h : remap cres mappings = .ok res) : res.origin = cres.origin := by
  unfold remap at h
  split at h
  · cases h
    rfl
  · obtain ⟨key, -, hres⟩ := Defined.bind_eq_ok.mp h
    split at hres
    · cases hres
      rfl
    · cases hres
      rfl

/-- A transformation leaves the origin alone. -/
theorem edgexTransformOutgoing_origin
    (h : edgexTransformOutgoing ld cres props mappings = .ok res) : res.origin = cres.origin := by
  have hset {x : Option ResultValue}
      (hx : (match x with
        | some value => return { cres with value }
        | none => return cres.overflowed : Defined CommandResult) = .ok res) :
      res.origin = cres.origin := by
    cases x with
    | none => cases hx; rfl
    | some value => cases hx; rfl
  unfold edgexTransformOutgoing at h
  cases htype : props.type with
  | string =>
    rw [htype] at h
    exact remap_origin h
  | bool | binary =>
    rw [htype] at h
    cases h
    rfl
  | float32 | float64 =>
    simp only [htype] at h
    split at h
    · obtain ⟨value, -, hres⟩ := Defined.bind_eq_ok.mp h
      exact hset hres
    · cases h
      rfl
  | uint8 | uint16 | uint32 | uint64 | int8 | int16 | int32 | int64 =>
    simp only [htype] at h
    split at h
    · obtain ⟨value, -, hres⟩ := Defined.bind_eq_ok.mp h
      obtain ⟨result, -, hres⟩ := Defined.bind_eq_ok.mp hres
      exact hset hres
    · cases h
      rfl

/-! ## Accesses -/

theorem applyArg_accesses {α : Type} {arg : TransformArg} {op : α → UInt64 → Defined α}
    (h : ∀ r v, (op r v).Accesses) (result : α) : (applyArg arg op result).Accesses := by
  cases arg with
  | none => exact Defined.accesses_ok result
  | some value => exact h result value

theorem shiftOutgoing_accesses (result : Int) (value : UInt64) :
    (shiftOutgoing result value).Accesses := by
  unfold shiftOutgoing
  split
  · exact (llResult_accesses _).bind fun n _ => llShiftLeft_accesses result n
  · exact llShiftRight_accesses result _

theorem converted_accesses (x : Option Int) : (converted x).Accesses := by
  cases x with
  | none => exact fun _ => ⟨nofun, nofun⟩
  | some x => exact Defined.accesses_ok x

theorem outgoingInt_accesses (result : Int) : (outgoingInt ld props result).Accesses := by
  refine (applyArg_accesses (fun r v => Defined.accesses_ok _) _).bind fun r _ => ?_
  refine (applyArg_accesses shiftOutgoing_accesses _).bind fun r _ => ?_
  refine (applyArg_accesses (fun r v => converted_accesses _) _).bind fun r _ => ?_
  refine (applyArg_accesses (fun r v => llResult_accesses _) _).bind fun r _ => ?_
  exact applyArg_accesses (fun r v => llResult_accesses _) _

theorem remap_accesses (h : cres.type = .string) : (remap cres mappings).Accesses := by
  unfold remap
  split
  · exact Defined.accesses_ok _
  · have hstring : stringResult cres = .ok cres.value.string := by rw [stringResult, h]
    rw [hstring, Defined.ok_bind]
    split
    · exact Defined.accesses_ok _
    · exact Defined.accesses_ok _

/-- A result of the type of its property is read at the member it was stored in. -/
theorem edgexTransformOutgoing_accesses (h : cres.type = props.type) :
    (edgexTransformOutgoing ld cres props mappings).Accesses := by
  have hset (x : Option ResultValue) :
      (match x with
        | some value => return { cres with value }
        | none => return cres.overflowed : Defined CommandResult).Accesses := by
    cases x with
    | none => exact Defined.accesses_ok _
    | some value => exact Defined.accesses_ok _
  unfold edgexTransformOutgoing
  cases htype : props.type with
  | string => exact remap_accesses (h.trans htype)
  | bool | binary => exact Defined.accesses_ok _
  | float32 | float64 =>
    have hscalars : scalars cres = .ok cres.value := by rw [scalars, h, htype]
    dsimp only
    split
    · rw [hscalars, Defined.ok_bind]
      exact hset _
    · exact Defined.accesses_ok _
  | uint8 | uint16 | uint32 | uint64 | int8 | int16 | int32 | int64 =>
    have hscalars : scalars cres = .ok cres.value := by rw [scalars, h, htype]
    dsimp only
    split
    · rw [hscalars, Defined.ok_bind]
      exact (outgoingInt_accesses _).bind fun r _ => hset _
    · exact Defined.accesses_ok _

end Transform

end Zigbee
