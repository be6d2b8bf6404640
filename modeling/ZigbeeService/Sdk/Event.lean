-- SUMMARY: The event that is made of the readings of a command, as a JSON or a CBOR document (data.c).
import ZigbeeService.Lib.Cbor
import ZigbeeService.Lib.Json
import ZigbeeService.Sdk.CmdInfo
import ZigbeeService.Sdk.Transform

/-!
# Events

`edgex_data_process_event`. The event is the document that is serialised; its text or its bytes are
not modelled here.
-/

namespace Zigbee

open CLib

/-- `edgex_event_cooked`. -/
inductive EventCooked where
  | json (jevent : Json)
  | cbor (cevent : Cbor)

section Process

variable (ft : FloatText) {L : Type} (ld : LongDouble L) (cb : Libcbor) (timenow : UInt64)

/-- `if (doTransforms) edgex_transform_outgoing (…)`. -/
def transformed (doTransforms : Bool) (req : CmdRequest) (value : CommandResult) :
    Defined CommandResult :=
  if doTransforms then edgexTransformOutgoing ld value req.pval req.map else .ok value

/-- The rendered value differs from the assertion of the property, which is not empty. -/
def assertionFails (req : CmdRequest) (value : CommandResult) : Prop :=
  req.pval.assertion ≠ [] ∧
    edgexValueTostring ft value req.pval.floatAsBinary ≠ req.pval.assertion

instance (req : CmdRequest) (value : CommandResult) : Decidable (assertionFails ft req value) :=
  inferInstanceAs (Decidable (_ ∧ _))

/-- The first loop: whether it reached its end, and the values as it leaves them. -/
def checkValues (doTransforms : Bool) :
    List CmdRequest → List CommandResult → Defined (Bool × List CommandResult)
  | [], values => return (true, values)
  | _ :: _, [] => .error (.memory .outOfBounds)
  | req :: reqs, value :: values => do
    let value ← transformed ld doTransforms req value
    if assertionFails ft req value then return (false, value :: values)
    else
      let (passed, values) ← checkValues doTransforms reqs values
      return (passed, value :: values)

/-- `values[i].origin ? values[i].origin : timenow`. -/
def readingOrigin (value : CommandResult) : UInt64 :=
  if value.origin ≠ 0 then value.origin else timenow

/-- One round of the loop of the CBOR branch. -/
def cborReading (req : CmdRequest) (value : CommandResult) : Cbor :=
  let crdg := cb.map.new (if value.origin ≠ 0 then 3 else 2)
  let crdg :=
    if value.type = .binary then
      cb.map.add crdg (.string (lit "binaryValue"), .bytestring value.value.binary)
    else
      cb.map.add crdg (.string (lit "value"),
        .string (edgexValueTostring ft value req.pval.floatAsBinary))
  let crdg := cb.map.add crdg (.string (lit "name"), .string req.resname)
  let crdg := cb.map.add crdg (.string (lit "origin"), .uint64 (readingOrigin timenow value))
  .map (cb.map.entries crdg)

/-- The CBOR branch. -/
def cborEvent (device_name : Text) (nreqs : Nat) (rdgs : List (CmdRequest × CommandResult)) :
    Cbor :=
  let cevent := cb.map.new 3
  let crdgs := rdgs.foldl
    (fun crdgs rdg => cb.array.add crdgs (cborReading ft cb timenow rdg.1 rdg.2))
    (cb.array.new nreqs)
  let cevent := cb.map.add cevent (.string (lit "device"), .string device_name)
  let cevent := cb.map.add cevent (.string (lit "origin"), .uint64 timenow)
  let cevent := cb.map.add cevent (.string (lit "readings"), .array (cb.array.entries crdgs))
  .map (cb.map.entries cevent)

/-- One round of the loop of the JSON branch. -/
def jsonReading (req : CmdRequest) (value : CommandResult) : Json :=
  let reading := edgexValueTostring ft value req.pval.floatAsBinary
  let robj := jsonObjectSetString [] (lit "name") req.resname
  let robj := jsonObjectSetString robj (lit "value") reading
  let robj := jsonObjectSetNumber robj (lit "origin") (readingOrigin timenow value)
  .object robj

/-- The JSON branch. -/
def jsonEvent (device_name : Text) (rdgs : List (CmdRequest × CommandResult)) : Json :=
  let jrdgs := rdgs.map fun rdg => jsonReading ft timenow rdg.1 rdg.2
  let jobj := jsonObjectSetString [] (lit "device") device_name
  let jobj := jsonObjectSetNumber jobj (lit "origin") timenow
  let jobj := jsonObjectSetValue jobj (lit "readings") (some (.array jrdgs))
  .object jobj

/-- Some property of the command is Binary. -/
def useCBOR (commandinfo : CmdInfo) : Bool :=
  commandinfo.reqs.any fun req => req.pval.type = .binary

/-- `edgex_data_process_event`, with the values as it leaves them. -/
def edgexDataProcessEvent (device_name : Text) (commandinfo : CmdInfo)
    (values : List CommandResult) (doTransforms : Bool) :
    Defined (Option EventCooked × List CommandResult) := do
  let (passed, values) ← checkValues ft ld doTransforms commandinfo.reqs values
  if passed then
    let rdgs := commandinfo.reqs.zip values
    let event :=
      if useCBOR commandinfo then
        EventCooked.cbor (cborEvent ft cb timenow device_name commandinfo.nreqs rdgs)
      else EventCooked.json (jsonEvent ft timenow device_name rdgs)
    return (some event, values)
  else return (none, values)

end Process

/-! ## What an event says -/

/-- The value of a reading: a text, or the bytes of a blob. -/
inductive ReadingValue where
  | text (t : Text)
  | binary (bytes : List UInt8)

/-- A reading as an event records it. -/
structure Reading where
  name : Text
  value : ReadingValue
  origin : UInt64

/-- An event, whatever its encoding. -/
structure Event where
  device : Text
  origin : UInt64
  readings : List Reading

/-- The count in a member that has to be a number. -/
def jsonCount? : Option Json → Option UInt64
  | some (.number x) => some (uint64OfDouble x)
  | _ => none

/-- The reading in a JSON object. -/
def jsonReading? (v : Json) : Option Reading := do
  let obj := jsonValueGetObject (some v)
  let name ← jsonObjectGetString obj (lit "name")
  let value ← jsonObjectGetString obj (lit "value")
  let origin ← jsonCount? (jsonObjectGetValue obj (lit "origin"))
  return ⟨name, .text value, origin⟩

/-- The event in a JSON object. -/
def jsonEvent? (v : Json) : Option Event := do
  let obj := jsonValueGetObject (some v)
  let device ← jsonObjectGetString obj (lit "device")
  let origin ← jsonCount? (jsonObjectGetValue obj (lit "origin"))
  let items ← jsonObjectGetArray obj (lit "readings")
  let readings ← items.mapM jsonReading?
  return ⟨device, origin, readings⟩

/-- The reading in a CBOR map. -/
def cborReading? (item : Cbor) : Option Reading := do
  let name ← (item.member? (lit "name")).bind Cbor.string?
  let value ←
    match item.member? (lit "binaryValue") with
    | some bytes => bytes.bytestring?.map ReadingValue.binary
    | none => ((item.member? (lit "value")).bind Cbor.string?).map ReadingValue.text
  let origin ← (item.member? (lit "origin")).bind Cbor.uint64?
  return ⟨name, value, origin⟩

/-- The event in a CBOR map. -/
def cborEvent? (item : Cbor) : Option Event := do
  let device ← (item.member? (lit "device")).bind Cbor.string?
  let origin ← (item.member? (lit "origin")).bind Cbor.uint64?
  let items ← (item.member? (lit "readings")).bind Cbor.items?
  let readings ← items.mapM cborReading?
  return ⟨device, origin, readings⟩

/-- The event in a document. -/
def EventCooked.event? : EventCooked → Option Event
  | .json jevent => jsonEvent? jevent
  | .cbor cevent => cborEvent? cevent

/-! ## What an event has to say -/

section Spec

variable (ft : FloatText) {L : Type} (ld : LongDouble L) (doTransforms : Bool)

/-- The `i`-th reading of a command: its request, its value, and the value transformed. -/
structure ReadingAt (commandinfo : CmdInfo) (values : List CommandResult) (i : Nat)
    (req : CmdRequest) (value value' : CommandResult) : Prop where
  request : commandinfo.reqs[i]? = some req
  given : values[i]? = some value
  transform : transformed ld doTransforms req value = .ok value'

/-- The recorded value is the value: rendered, or the bytes of a blob. -/
def Denotes (req : CmdRequest) (value : CommandResult) : ReadingValue → Prop
  | .text t => t = edgexValueTostring ft value req.pval.floatAsBinary
  | .binary bytes => value.type = .binary ∧ bytes = value.value.binary

/-- The event holds the device, the time and, in the order of the command, exactly its readings. -/
def Carries (timenow : UInt64) (device_name : Text) (commandinfo : CmdInfo)
    (values : List CommandResult) (event : EventCooked) : Prop :=
  ∃ ev, event.event? = some ev ∧ ev.device = device_name ∧ ev.origin = timenow ∧
    ev.readings.length = commandinfo.nreqs ∧
    ∀ i req value value', ReadingAt ld doTransforms commandinfo values i req value value' →
      ∃ r, ev.readings[i]? = some r ∧ r.name = req.resname ∧ Denotes ft req value' r.value ∧
        r.origin = if value.origin ≠ 0 then value.origin else timenow

/-- A count that a double holds. -/
def Exact (n : UInt64) : Prop := uint64OfDouble (doubleOfUint64 n) = n

instance (n : UInt64) : Decidable (Exact n) := inferInstanceAs (Decidable (_ = _))

/-- What the encoding has room for. In CBOR every reading needs an origin of its own. In JSON every
text has to be valid UTF-8 and every origin has to be the value of a double. -/
def Recordable (timenow : UInt64) (device_name : Text) (commandinfo : CmdInfo)
    (values : List CommandResult) : Prop :=
  if useCBOR commandinfo then
    ∀ i req value value', ReadingAt ld doTransforms commandinfo values i req value value' →
      value.origin ≠ 0
  else
    isValidUtf8 device_name = true ∧ Exact timenow ∧
      ∀ i req value value', ReadingAt ld doTransforms commandinfo values i req value value' →
        isValidUtf8 req.resname = true ∧
          isValidUtf8 (edgexValueTostring ft value' req.pval.floatAsBinary) = true ∧
            Exact (readingOrigin timenow value)

end Spec

/-! ## The readings of a document -/

/-- Reading items back one by one, when each can be read on a condition of its own. -/
theorem mapM_map_eq_ite {α β γ : Type} {f : β → Option γ} {g : α → β} {P : α → Prop}
    [DecidablePred P] {e : α → γ} (h : ∀ a, f (g a) = if P a then some (e a) else none)
    (l : List α) : (l.map g).mapM f = if ∀ a ∈ l, P a then some (l.map e) else none := by
  induction l with
  | nil => simp
  | cons a l ih =>
    rw [List.map_cons, List.mapM_cons, h, ih]
    by_cases ha : P a
    · by_cases hl : ∀ b ∈ l, P b
      · rw [if_pos ha, if_pos hl, if_pos (List.forall_mem_cons.mpr ⟨ha, hl⟩)]
        rfl
      · rw [if_pos ha, if_neg hl, if_neg fun hall => hl (List.forall_mem_cons.mp hall).2]
        rfl
    · rw [if_neg ha, if_neg fun hall => ha (List.forall_mem_cons.mp hall).1]
      rfl

section Readings

variable (ft : FloatText) (timenow : UInt64)

/-- The texts that the JSON branch stores for a reading are valid UTF-8. -/
def Storable (rdg : CmdRequest × CommandResult) : Prop :=
  isValidUtf8 rdg.1.resname = true ∧
    isValidUtf8 (edgexValueTostring ft rdg.2 rdg.1.pval.floatAsBinary) = true

instance : DecidablePred (Storable ft) := fun _ => inferInstanceAs (Decidable (_ ∧ _))

/-- What the JSON branch records of a reading, when it can store the texts. -/
def jsonRecorded (rdg : CmdRequest × CommandResult) : Reading where
  name := rdg.1.resname
  value := .text (edgexValueTostring ft rdg.2 rdg.1.pval.floatAsBinary)
  origin := uint64OfDouble (doubleOfUint64 (readingOrigin timenow rdg.2))

/-- What the CBOR branch records of a reading, when it has room for its origin. -/
def cborRecorded (rdg : CmdRequest × CommandResult) : Reading where
  name := rdg.1.resname
  value :=
    if rdg.2.type = .binary then .binary rdg.2.value.binary
    else .text (edgexValueTostring ft rdg.2 rdg.1.pval.floatAsBinary)
  origin := rdg.2.origin

theorem jsonReading?_jsonReading (rdg : CmdRequest × CommandResult) :
    jsonReading? (jsonReading ft timenow rdg.1 rdg.2) =
      if Storable ft rdg then some (jsonRecorded ft timenow rdg) else none := by
  have hkeys : lit "name" ≠ lit "value" ∧ lit "value" ≠ lit "name" ∧
      lit "name" ≠ lit "origin" ∧ lit "value" ≠ lit "origin" := by decide
  obtain ⟨hnv, hvn, hno, hvo⟩ := hkeys
  simp only [jsonReading?, jsonReading, jsonValueGetObject_object, jsonObjectGetString,
    jsonObjectSetNumber, jsonObjectGetValue_setValue, jsonObjectGetValue_setString, if_neg hno,
    if_neg hvo, jsonCount?, if_true]
  by_cases hname : isValidUtf8 rdg.1.resname = true <;>
    by_cases hvalue : isValidUtf8 (edgexValueTostring ft rdg.2 rdg.1.pval.floatAsBinary) = true <;>
      simp [hname, hvalue, hnv, hvn, Storable, jsonRecorded]

/-- The member that the CBOR branch adds for the value of a reading. -/
def cborValue (rdg : CmdRequest × CommandResult) : Cbor × Cbor :=
  if rdg.2.type = .binary then
    (.string (lit "binaryValue"), .bytestring rdg.2.value.binary)
  else
    (.string (lit "value"),
      .string (edgexValueTostring ft rdg.2 rdg.1.pval.floatAsBinary))

variable {cb : Libcbor}

/-- A map declared for two members has no room for the third. -/
theorem cborReading_eq (hcb : cb.Bounded) (rdg : CmdRequest × CommandResult) :
    cborReading ft cb timenow rdg.1 rdg.2 =
      .map ([cborValue ft rdg, (.string (lit "name"), .string rdg.1.resname),
        (.string (lit "origin"), .uint64 (readingOrigin timenow rdg.2))].take
          (if rdg.2.origin ≠ 0 then 3 else 2)) := by
  have hpairs := hcb.map.entries_fill (if rdg.2.origin ≠ 0 then 3 else 2)
    [cborValue ft rdg, (.string (lit "name"), .string rdg.1.resname),
      (.string (lit "origin"), .uint64 (readingOrigin timenow rdg.2))]
  refine congrArg Cbor.map (Eq.trans ?_ hpairs)
  unfold cborValue
  by_cases hbinary : rdg.2.type = .binary
  · simp only [hbinary, if_true, List.foldl_cons, List.foldl_nil]
  · simp only [hbinary, if_false, List.foldl_cons, List.foldl_nil]

theorem cborReading?_cborReading (hcb : cb.Bounded) (rdg : CmdRequest × CommandResult) :
    cborReading? (cborReading ft cb timenow rdg.1 rdg.2) =
      if rdg.2.origin ≠ 0 then some (cborRecorded ft rdg) else none := by
  rw [cborReading_eq ft timenow hcb, cborValue]
  by_cases horigin : rdg.2.origin = 0 <;> by_cases hbinary : rdg.2.type = .binary <;>
    simp +decide [cborReading?, cborRecorded, horigin, hbinary, Cbor.member?, Cbor.isString,
      Cbor.string?, Cbor.bytestring?, Cbor.uint64?, readingOrigin]

theorem jsonEvent?_jsonEvent (device_name : Text) (rdgs : List (CmdRequest × CommandResult)) :
    jsonEvent? (jsonEvent ft timenow device_name rdgs) =
      if isValidUtf8 device_name = true ∧ ∀ rdg ∈ rdgs, Storable ft rdg then
        some ⟨device_name, uint64OfDouble (doubleOfUint64 timenow),
          rdgs.map (jsonRecorded ft timenow)⟩
      else none := by
  have hkeys : lit "device" ≠ lit "origin" ∧ lit "device" ≠ lit "readings" ∧
      lit "origin" ≠ lit "readings" := by decide
  obtain ⟨hdo, hdr, hor⟩ := hkeys
  have hreadings := mapM_map_eq_ite (jsonReading?_jsonReading ft timenow) rdgs
  simp only [jsonEvent?, jsonEvent, jsonValueGetObject_object, jsonObjectGetString,
    jsonObjectGetArray, jsonObjectSetNumber, jsonObjectGetValue_setValue,
    jsonObjectGetValue_setString, if_neg hdo, if_neg hdr, if_neg hor, jsonCount?, if_true,
    jsonValueGetArray_array]
  by_cases hdevice : isValidUtf8 device_name = true
  · by_cases hall : ∀ rdg ∈ rdgs, Storable ft rdg
    · rw [if_pos hall] at hreadings
      simp only [hdevice, eq_true hall, and_self, if_true]
      simp [hreadings]
    · rw [if_neg hall] at hreadings
      simp only [hdevice, eq_false hall, and_self, and_false, if_true, if_false]
      simp [hreadings]
  · simp only [hdevice, and_false, false_and, if_false, Bool.false_eq_true]
    rfl

theorem cborEvent?_cborEvent (hcb : cb.Bounded) (device_name : Text) {nreqs : Nat}
    {rdgs : List (CmdRequest × CommandResult)} (hfits : rdgs.length ≤ nreqs) :
    cborEvent? (cborEvent ft cb timenow device_name nreqs rdgs) =
      if ∀ rdg ∈ rdgs, rdg.2.origin ≠ 0 then
        some ⟨device_name, timenow, rdgs.map (cborRecorded ft)⟩
      else none := by
  have hreadings := mapM_map_eq_ite (cborReading?_cborReading ft timenow hcb) rdgs
  have hitems : cb.array.entries (rdgs.foldl
      (fun crdgs rdg => cb.array.add crdgs (cborReading ft cb timenow rdg.1 rdg.2))
      (cb.array.new nreqs)) =
        rdgs.map fun rdg => cborReading ft cb timenow rdg.1 rdg.2 := by
    rw [← List.foldl_map, hcb.array.entries_fill]
    exact List.take_of_length_le ((List.length_map _).trans_le hfits)
  have hmembers (items : Cbor) : cb.map.entries (cb.map.add (cb.map.add (cb.map.add (cb.map.new 3)
      (.string (lit "device"), .string device_name)) (.string (lit "origin"), .uint64 timenow))
      (.string (lit "readings"), items)) =
        [(.string (lit "device"), .string device_name),
          (.string (lit "origin"), .uint64 timenow), (.string (lit "readings"), items)] :=
    hcb.map.entries_fill 3 [(.string (lit "device"), .string device_name),
      (.string (lit "origin"), .uint64 timenow), (.string (lit "readings"), items)]
  simp only [cborEvent, hitems, hmembers]
  by_cases hall : ∀ rdg ∈ rdgs, rdg.2.origin ≠ 0
  · rw [if_pos hall] at hreadings ⊢
    simp +decide [cborEvent?, Cbor.member?, Cbor.isString, Cbor.string?, Cbor.uint64?, Cbor.items?,
      hreadings]
  · rw [if_neg hall] at hreadings ⊢
    simp +decide [cborEvent?, Cbor.member?, Cbor.isString, Cbor.string?, Cbor.uint64?, Cbor.items?,
      hreadings]

end Readings

/-! ## The first loop -/

section Check

variable {ft : FloatText} {L : Type} {ld : LongDouble L} {doTransforms : Bool}

theorem transformed_origin {req : CmdRequest} {value value' : CommandResult}
    (h : transformed ld doTransforms req value = .ok value') : value'.origin = value.origin := by
  unfold transformed at h
  split at h
  · exact edgexTransformOutgoing_origin h
  · cases h
    rfl

/-- The loop reaches its end when no assertion fails, and stops at the first one that does. -/
theorem checkValues_eq_ok {commandinfo : CmdInfo} {values values' : List CommandResult}
    {passed : Bool}
    (h : checkValues ft ld doTransforms commandinfo.reqs values = .ok (passed, values')) :
    (passed = true → ∀ (i : Nat) req, commandinfo.reqs[i]? = some req → ∃ value value',
        ReadingAt ld doTransforms commandinfo values i req value value' ∧
          values'[i]? = some value' ∧ ¬ assertionFails ft req value') ∧
      (passed = false → ∃ (i : Nat) (req : CmdRequest) (value value' : CommandResult),
        ReadingAt ld doTransforms commandinfo values i req value value' ∧
          assertionFails ft req value') := by
  obtain ⟨name, isget, reqs⟩ := commandinfo
  induction reqs generalizing values values' with
  | nil =>
    cases h
    refine ⟨fun _ i req hreq => ?_, nofun⟩
    cases hreq
  | cons req reqs ih =>
    cases values with
    | nil => cases h
    | cons value values =>
      rw [checkValues] at h
      obtain ⟨value', hvalue, h⟩ := Defined.bind_eq_ok.mp h
      split at h
      · next hfails =>
        cases h
        exact ⟨nofun, fun _ => ⟨0, req, value, value', ⟨rfl, rfl, hvalue⟩, hfails⟩⟩
      · next hpass =>
        -- the readings behind the first one have their index one higher
        obtain ⟨⟨passed', rest⟩, hrest, h⟩ := Defined.bind_eq_ok.mp h
        cases h
        obtain ⟨hall, hsome⟩ := ih hrest
        constructor
        · intro hp i r hr
          cases i with
          | zero =>
            cases hr
            exact ⟨value, value', ⟨rfl, rfl, hvalue⟩, rfl, hpass⟩
          | succ i =>
            obtain ⟨v, v', hat, hv', hv⟩ := hall hp i r hr
            exact ⟨v, v', ⟨hat.request, hat.given, hat.transform⟩, hv', hv⟩
        · intro hp
          obtain ⟨i, r, v, v', hat, hv⟩ := hsome hp
          exact ⟨i + 1, r, v, v', ⟨hat.request, hat.given, hat.transform⟩, hv⟩

/-- A reading is transformed in one way. -/
theorem ReadingAt.unique {commandinfo : CmdInfo} {values : List CommandResult} {i : Nat}
    {req req' : CmdRequest} {value value' v v' : CommandResult}
    (h : ReadingAt ld doTransforms commandinfo values i req value value')
    (h' : ReadingAt ld doTransforms commandinfo values i req' v v') :
    req = req' ∧ value = v ∧ value' = v' := by
  cases h.request.symm.trans h'.request
  cases h.given.symm.trans h'.given
  cases h.transform.symm.trans h'.transform
  exact ⟨rfl, rfl, rfl⟩

end Check

/-! ## Events -/

section Event

variable {ft : FloatText} {L : Type} {ld : LongDouble L} {cb : Libcbor} {timenow : UInt64}
  {device_name : Text} {commandinfo : CmdInfo} {values : List CommandResult} {doTransforms : Bool}

/-- The readings that the second loop visits, when the first one reached its end. -/
structure Passed (ft : FloatText) (ld : LongDouble L) (doTransforms : Bool) (commandinfo : CmdInfo)
    (values : List CommandResult) (rdgs : List (CmdRequest × CommandResult)) : Prop where
  length : rdgs.length = commandinfo.nreqs
  reading : ∀ (i : Nat) req value', rdgs[i]? = some (req, value') ↔
    ∃ value, ReadingAt ld doTransforms commandinfo values i req value value'
  assertion : ∀ (i : Nat) req value', rdgs[i]? = some (req, value') → ¬ assertionFails ft req value'

theorem passed_of_checkValues {values' : List CommandResult}
    (h : checkValues ft ld doTransforms commandinfo.reqs values = .ok (true, values')) :
    Passed ft ld doTransforms commandinfo values (commandinfo.reqs.zip values') := by
  have hall := (checkValues_eq_ok h).1 rfl
  have hreading (i : Nat) (req : CmdRequest) (value' : CommandResult) :
      (commandinfo.reqs.zip values')[i]? = some (req, value') ↔
        ∃ value, ReadingAt ld doTransforms commandinfo values i req value value' := by
    rw [List.getElem?_zip_eq_some]
    constructor
    · rintro ⟨hreq, hvalue'⟩
      obtain ⟨value, v', hat, hv', -⟩ := hall i req hreq
      cases hvalue'.symm.trans hv'
      exact ⟨value, hat⟩
    · rintro ⟨value, hat⟩
      obtain ⟨v, v', hat', hv', -⟩ := hall i req hat.request
      obtain ⟨-, -, rfl⟩ := hat.unique hat'
      exact ⟨hat.request, hv'⟩
  refine ⟨?_, hreading, ?_⟩
  · rw [List.length_zip, CmdInfo.nreqs]
    refine Nat.min_eq_left (Nat.le_of_not_lt fun hlt => ?_)
    obtain ⟨-, v', -, hv', -⟩ := hall _ _ (List.getElem?_eq_getElem hlt)
    rw [List.getElem?_eq_none le_rfl] at hv'
    cases hv'
  · intro i req value' hrdg hfails
    obtain ⟨hreq, hvalue'⟩ := List.getElem?_zip_eq_some.mp hrdg
    obtain ⟨-, v', -, hv', hpass⟩ := hall i req hreq
    cases hvalue'.symm.trans hv'
    exact hpass hfails

theorem readingOrigin_transformed {i : Nat} {req : CmdRequest} {value value' : CommandResult}
    (h : ReadingAt ld doTransforms commandinfo values i req value value') :
    readingOrigin timenow value' = readingOrigin timenow value := by
  rw [readingOrigin, readingOrigin, transformed_origin h.transform]

section Branches

variable {rdgs : List (CmdRequest × CommandResult)}

/-- A condition on the readings that are visited is one on the readings of the command. -/
theorem Passed.forall_iff (h : Passed ft ld doTransforms commandinfo values rdgs)
    (P : CmdRequest × CommandResult → Prop) :
    (∀ rdg ∈ rdgs, P rdg) ↔ ∀ i req value value',
      ReadingAt ld doTransforms commandinfo values i req value value' → P (req, value') := by
  constructor
  · intro hall i req value value' hat
    exact hall _ (List.mem_of_getElem? ((h.reading i req value').mpr ⟨value, hat⟩))
  · rintro hall ⟨req, value'⟩ hmem
    obtain ⟨i, hi⟩ := List.getElem?_of_mem hmem
    obtain ⟨value, hat⟩ := (h.reading i req value').mp hi
    exact hall i req value value' hat

theorem carries_json_iff (h : Passed ft ld doTransforms commandinfo values rdgs) :
    Carries ft ld doTransforms timenow device_name commandinfo values
        (.json (jsonEvent ft timenow device_name rdgs)) ↔
      isValidUtf8 device_name = true ∧ Exact timenow ∧
        ∀ i req value value', ReadingAt ld doTransforms commandinfo values i req value value' →
          isValidUtf8 req.resname = true ∧
            isValidUtf8 (edgexValueTostring ft value' req.pval.floatAsBinary) = true ∧
              Exact (readingOrigin timenow value) := by
  have hread := jsonEvent?_jsonEvent ft timenow device_name rdgs
  constructor
  · rintro ⟨ev, hev, -, horigin, -, hall⟩
    rw [EventCooked.event?, hread] at hev
    split at hev
    case isFalse => cases hev
    case isTrue hcond =>
      cases hev
      -- what was recorded is the rounded time, so the time has to be one that rounding keeps
      refine ⟨hcond.1, horigin, fun i req value value' hat => ?_⟩
      obtain ⟨hname, hvalue⟩ := (h.forall_iff _).mp hcond.2 i req value value' hat
      obtain ⟨r, hr, -, -, hro⟩ := hall i req value value' hat
      rw [List.getElem?_map, (h.reading i req value').mpr ⟨value, hat⟩] at hr
      cases hr
      rw [jsonRecorded, readingOrigin_transformed hat] at hro
      exact ⟨hname, hvalue, hro⟩
  · rintro ⟨hdevice, hnow, hall⟩
    have hstorable : ∀ rdg ∈ rdgs, Storable ft rdg := by
      rw [h.forall_iff]
      intro i req value value' hat
      obtain ⟨hname, hvalue, -⟩ := hall i req value value' hat
      exact ⟨hname, hvalue⟩
    refine ⟨_, hread.trans (if_pos ⟨hdevice, hstorable⟩), rfl, hnow, ?_, ?_⟩
    · rw [List.length_map, h.length]
    · intro i req value value' hat
      obtain ⟨-, -, hexact⟩ := hall i req value value' hat
      refine ⟨jsonRecorded ft timenow (req, value'), ?_, rfl, rfl, ?_⟩
      · rw [List.getElem?_map, (h.reading i req value').mpr ⟨value, hat⟩]
        rfl
      · rw [jsonRecorded, readingOrigin_transformed hat]
        exact hexact

theorem carries_cbor_iff (hcb : cb.Bounded)
    (h : Passed ft ld doTransforms commandinfo values rdgs) :
    Carries ft ld doTransforms timenow device_name commandinfo values
        (.cbor (cborEvent ft cb timenow device_name commandinfo.nreqs rdgs)) ↔
      ∀ i req value value', ReadingAt ld doTransforms commandinfo values i req value value' →
        value.origin ≠ 0 := by
  have hread := cborEvent?_cborEvent ft timenow hcb device_name h.length.le
  have hiff : (∀ rdg ∈ rdgs, rdg.2.origin ≠ 0) ↔ ∀ i req value value',
      ReadingAt ld doTransforms commandinfo values i req value value' → value.origin ≠ 0 := by
    rw [h.forall_iff]
    constructor
    · intro hall i req value value' hat
      rw [← transformed_origin hat.transform]
      exact hall i req value value' hat
    · intro hall i req value value' hat
      rw [transformed_origin hat.transform]
      exact hall i req value value' hat
  rw [← hiff]
  constructor
  · rintro ⟨ev, hev, -⟩
    rw [EventCooked.event?, hread] at hev
    split at hev
    case isFalse => cases hev
    case isTrue hcond => exact hcond
  · intro hall
    refine ⟨_, hread.trans (if_pos hall), rfl, rfl, ?_, ?_⟩
    · rw [List.length_map, h.length]
    · intro i req value value' hat
      refine ⟨cborRecorded ft (req, value'), ?_, rfl, ?_, ?_⟩
      · rw [List.getElem?_map, (h.reading i req value').mpr ⟨value, hat⟩]
        rfl
      · unfold cborRecorded
        dsimp only
        split
        · next hbinary => exact ⟨hbinary, rfl⟩
        · rfl
      · rw [if_pos (hiff.mp hall i req value value' hat)]
        exact transformed_origin hat.transform

end Branches

/-- An event is made unless an assertion fails. -/
theorem edgexDataProcessEvent_eq_none {result : Option EventCooked} {values' : List CommandResult}
    (h : edgexDataProcessEvent ft ld cb timenow device_name commandinfo values doTransforms =
      .ok (result, values')) :
    result = none ↔ ∃ i req value value',
      ReadingAt ld doTransforms commandinfo values i req value value' ∧
        assertionFails ft req value' := by
  obtain ⟨⟨passed, checked⟩, hcheck, h⟩ := Defined.bind_eq_ok.mp h
  cases passed with
  | false =>
    -- the first loop returned NULL at the first assertion that fails
    cases h
    obtain ⟨i, req, value, value', hat, hfails⟩ := (checkValues_eq_ok hcheck).2 rfl
    exact ⟨fun _ => ⟨i, req, value, value', hat, hfails⟩, fun _ => rfl⟩
  | true =>
    have hpassed := passed_of_checkValues hcheck
    cases h
    refine ⟨nofun, ?_⟩
    rintro ⟨i, req, value, value', hat, hfails⟩
    exact absurd hfails
      (hpassed.assertion i req value' ((hpassed.reading i req value').mpr ⟨value, hat⟩))

/-- An event is made unless an assertion fails. It carries the device, the time and the readings
exactly when the encoding has room for them. -/
theorem edgexDataProcessEvent_carries (hcb : cb.Bounded) {result : Option EventCooked}
    {values' : List CommandResult}
    (h : edgexDataProcessEvent ft ld cb timenow device_name commandinfo values doTransforms =
      .ok (result, values')) :
    (result = none ↔ ∃ i req value value',
        ReadingAt ld doTransforms commandinfo values i req value value' ∧
          assertionFails ft req value') ∧
      ∀ event, result = some event →
        (Carries ft ld doTransforms timenow device_name commandinfo values event ↔
          Recordable ft ld doTransforms timenow device_name commandinfo values) := by
  refine ⟨edgexDataProcessEvent_eq_none h, ?_⟩
  rintro event rfl
  obtain ⟨⟨passed, checked⟩, hcheck, h⟩ := Defined.bind_eq_ok.mp h
  cases passed with
  | false => cases h
  | true =>
    have hpassed := passed_of_checkValues hcheck
    cases h
    unfold Recordable
    by_cases hcbor : useCBOR commandinfo = true
    · rw [if_pos hcbor, if_pos hcbor]
      exact carries_cbor_iff hcb hpassed
    · rw [if_neg hcbor, if_neg hcbor]
      exact carries_json_iff hpassed

/-! ## Accesses -/

/-- The first loop on values that start with those of the requests, at their types. -/
theorem checkValues_accesses {reqs : List CmdRequest}
    (h : reqs.map (fun req => req.pval.type) <+: values.map fun value => value.type) :
    (checkValues ft ld doTransforms reqs values).Accesses := by
  induction reqs generalizing values with
  | nil => exact Defined.accesses_ok _
  | cons req reqs ih =>
    cases values with
    | nil =>
      rw [List.map_nil, List.prefix_nil] at h
      cases h
    | cons value values =>
      rw [List.map_cons, List.map_cons, List.cons_prefix_cons] at h
      obtain ⟨htype, hrest⟩ := h
      have htransformed : (transformed ld doTransforms req value).Accesses := by
        unfold transformed
        split
        · exact edgexTransformOutgoing_accesses htype.symm
        · exact Defined.accesses_ok value
      refine htransformed.bind fun value' _ => ?_
      split
      · exact Defined.accesses_ok _
      · exact (ih hrest).bind fun r _ => Defined.accesses_ok _

variable (ft ld cb timenow device_name doTransforms) in
/-- Such values are read within bounds, and at the members that they were stored in. -/
theorem edgexDataProcessEvent_accesses
    (h : commandinfo.reqs.map (fun req => req.pval.type) <+: values.map fun value => value.type) :
    (edgexDataProcessEvent ft ld cb timenow device_name commandinfo values
      doTransforms).Accesses := by
  refine (checkValues_accesses h).bind fun r _ => ?_
  obtain ⟨passed, values'⟩ := r
  cases passed with
  | false => exact Defined.accesses_ok _
  | true => exact Defined.accesses_ok _

end Event

/-! ### A plug -/

/-- The command that reads one resource of a plug. -/
def plugRead (name : Text) (type : PropertyType) : CmdInfo :=
  infoForDevRes (plugResource name type) true

/-- The metered power, with no origin of its own. -/
def plugPower : CommandResult := { CommandResult.zero with type := .uint16, value := ⟨42, [], []⟩ }

/-- A picture, with no origin of its own. -/
def plugPicture : CommandResult :=
  { CommandResult.zero with type := .binary, value := ⟨0, [], [1, 2, 3]⟩ }

theorem plugPower_carried :
    ∃ event values', edgexDataProcessEvent FloatText.empty LongDouble.empty Libcbor.ofList 1000
        (lit "plug")
        (plugRead (lit "Power") .uint16) [plugPower] true = .ok (some event, values') ∧
      (Carries FloatText.empty LongDouble.empty true 1000 (lit "plug")
          (plugRead (lit "Power") .uint16) [plugPower] event ↔
        Recordable FloatText.empty LongDouble.empty true 1000 (lit "plug")
          (plugRead (lit "Power") .uint16) [plugPower]) :=
  ⟨_, _, rfl, (edgexDataProcessEvent_carries Libcbor.bounded_ofList rfl).2 _ rfl⟩

theorem plugPicture_origin_lost :
    ∃ event values', edgexDataProcessEvent FloatText.empty LongDouble.empty Libcbor.ofList 1000
        (lit "plug")
        (plugRead (lit "Picture") .binary) [plugPicture] true = .ok (some event, values') ∧
      ¬ Carries FloatText.empty LongDouble.empty true 1000 (lit "plug")
          (plugRead (lit "Picture") .binary) [plugPicture] event := by
  refine ⟨_, _, rfl, ?_⟩
  rintro ⟨ev, hev, -⟩
  cases hev

end Zigbee
