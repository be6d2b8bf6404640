-- SUMMARY: The readers of user.c that turn a radio message into readings: user_repget_event_read and user_push_event_read.
import ZigbeeService.Message.Parse
import ZigbeeService.Sdk.Value

/-!
# Readings from messages

Both readers parse the message with `takeEvent` and then convert its values one by one, at the
types of the requests. Neither looks at the size of the event.
-/

namespace Zigbee

open CLib

/-- What a reader sees of a device: the requests of each of its GET commands. -/
structure EdgexDevice where
  findcommand : Text → Option (List CommandRequest)

/-- What a reader sees of the device service: its devices by name. -/
structure EdgexService where
  deviceByname : Text → Option EdgexDevice

/-- `user_push_event`. -/
structure UserPushEvent where
  deviceName : Text
  resourceName : Text
  values : List CommandResult
  deriving DecidableEq

/-! ## The readers -/

/-- The conversion loop, at index `i`: the reading gets the type of its request and the origin of
the event, then its value. A value that is not accepted ends the loop. -/
def readReadings (ft : FloatText) (ev : SensorEvent) :
    Nat → List CommandRequest → List CommandResult → Checked (Bool × List CommandResult)
  | _, [], readings => .ok (true, readings)
  | _, _ :: _, [] => .error .outOfBounds
  | i, req :: reqs, reading :: readings => do
    let value ← ev.loadValue i
    match populateValue ft { reading with type := req.type, origin := ev.origin } value with
    | (true, reading) =>
      let (result, readings) ← readReadings ft ev (i + 1) reqs readings
      .ok (result, reading :: readings)
    | (false, reading) => .ok (false, reading :: readings)

/-- `user_repget_event_read`: whether the message answers for `devname`, and the readings. The
caller's arrays have `nreadings` entries each. -/
def userRepgetEventRead (ft : FloatText) (readings : List CommandResult) (devname : Text)
    (requests : List CommandRequest) (input : Text) : Checked (Bool × List CommandResult) := do
  let ev ← takeEvent input
  if ev.name ≠ devname then
    freeEvent ev
    .ok (false, readings)
  else
    let (result, readings) ← readReadings ft ev 0 requests readings
    freeEvent ev
    .ok (result, readings)

/-- `user_push_event_read`: NULL when the device or its command is unknown. -/
def userPushEventRead (ft : FloatText) (svc : EdgexService) (input : Text) :
    Checked (Option UserPushEvent) := do
  let ev ← takeEvent input
  match svc.deviceByname ev.name with
  | none =>
    freeEvent ev
    .ok none
  | some dev =>
    match dev.findcommand ev.commandDevice with
    | none =>
      freeEvent ev
      .ok none
    | some reqs =>
      let (result, values) ←
        readReadings ft ev 0 reqs (List.replicate reqs.length CommandResult.zero)
      if result then
        freeEvent ev
        .ok (some ⟨ev.name, ev.commandDevice, values⟩)
      else
        -- a value is not accepted: the device is released, and with its profile `commandinfo`,
        -- whose `nreqs` is read after that
        .error .danglingPointer

/-! ## What the conversion loop stores -/

/-- The reading is what `populateValue` makes of the text, at the type of the request. -/
def ReadingOf (ft : FloatText) (origin : UInt64) (req : CommandRequest) (value : Text)
    (reading : CommandResult) : Prop :=
  ∃ prior : CommandResult, prior.type = req.type ∧ prior.origin = origin ∧
    populateValue ft prior value = (true, reading)

/-- The readings are those of the first values, one for each request. -/
def ReadingsOf (ft : FloatText) (origin : UInt64) :
    List CommandRequest → List Text → List CommandResult → Prop
  | [], _, [] => True
  | req :: reqs, value :: values, reading :: readings =>
    ReadingOf ft origin req value reading ∧ ReadingsOf ft origin reqs values readings
  | _, _, _ => False

theorem readReadings_length {ft : FloatText} {ev : SensorEvent} {i : Nat}
    {reqs : List CommandRequest} {readings readings' : List CommandResult} {b : Bool}
    (h : readReadings ft ev i reqs readings = .ok (b, readings')) :
    readings'.length = readings.length := by
  induction reqs generalizing i readings readings' with
  | nil => cases h; rfl
  | cons req reqs ih =>
    cases readings with
    | nil => cases h
    | cons reading readings =>
      obtain ⟨value, -, h⟩ := Checked.bind_eq_ok.mp h
      split at h
      · obtain ⟨⟨result, rest⟩, hrest, h⟩ := Checked.bind_eq_ok.mp h
        cases h
        rw [List.length_cons, ih hrest, List.length_cons]
      · cases h; rfl

theorem userRepgetEventRead_length {ft : FloatText} {readings readings' : List CommandResult}
    {devname : Text} {requests : List CommandRequest} {input : Text} {b : Bool}
    (h : userRepgetEventRead ft readings devname requests input = .ok (b, readings')) :
    readings'.length = readings.length := by
  obtain ⟨ev, -, h⟩ := Checked.bind_eq_ok.mp h
  split at h
  · obtain ⟨_, -, h⟩ := Checked.bind_eq_ok.mp h
    cases h
    rfl
  · obtain ⟨⟨result, rest⟩, hread, h⟩ := Checked.bind_eq_ok.mp h
    obtain ⟨_, -, h⟩ := Checked.bind_eq_ok.mp h
    cases h
    exact readReadings_length hread

/-- A loop that accepts every value has stored the readings of the values it passed. -/
theorem readReadings_readingsOf {ft : FloatText} {ev : SensorEvent} {arr : ValueArray}
    (hev : ev.value = some arr) {i : Nat} {reqs : List CommandRequest}
    {readings readings' : List CommandResult} (hlen : readings.length = reqs.length)
    (h : readReadings ft ev i reqs readings = .ok (true, readings')) :
    ReadingsOf ft ev.origin reqs (arr.cells.drop i) readings' := by
  induction reqs generalizing i readings readings' with
  | nil =>
    cases h
    rw [List.length_eq_zero_iff.mp hlen]
    trivial
  | cons req reqs ih =>
    cases readings with
    | nil => cases h
    | cons reading readings =>
      obtain ⟨value, hload, h⟩ := Checked.bind_eq_ok.mp h
      have hcell : arr.cells.drop i = value :: arr.cells.drop (i + 1) := by
        simp only [SensorEvent.loadValue, hev, ValueArray.load] at hload
        split at hload
        · next v hv =>
          cases hload
          obtain ⟨hi, rfl⟩ := List.getElem?_eq_some_iff.mp hv
          exact List.drop_eq_getElem_cons hi
        · split at hload <;> cases hload
      rw [hcell]
      split at h
      · next reading' hpop =>
        obtain ⟨⟨result, rest⟩, hrest, h⟩ := Checked.bind_eq_ok.mp h
        cases h
        exact ⟨⟨_, rfl, rfl, hpop⟩, ih (by simpa using hlen) hrest⟩
      · cases h

/-- What an accepted reply stores: the event parsed, it names the device, and the readings are those
of its first values. -/
theorem userRepgetEventRead_true {ft : FloatText} {readings readings' : List CommandResult}
    {devname : Text} {requests : List CommandRequest} {input : Text}
    (h : userRepgetEventRead ft readings devname requests input = .ok (true, readings')) :
    ∃ ev, takeEvent input = .ok ev ∧ ev.name = devname ∧
      readReadings ft ev 0 requests readings = .ok (true, readings') := by
  obtain ⟨ev, hev, h⟩ := Checked.bind_eq_ok.mp h
  refine ⟨ev, hev, ?_⟩
  split at h
  · obtain ⟨_, -, h⟩ := Checked.bind_eq_ok.mp h
    cases h
  · next hname =>
    obtain ⟨⟨result, rest⟩, hread, h⟩ := Checked.bind_eq_ok.mp h
    obtain ⟨_, -, h⟩ := Checked.bind_eq_ok.mp h
    cases h
    exact ⟨not_not.mp hname, hread⟩

/-- Whether the loop accepts the values does not depend on what the readings held before. -/
theorem readReadings_true_congr {ft : FloatText} {ev : SensorEvent} {i : Nat}
    {reqs : List CommandRequest} {readings readings' out : List CommandResult}
    (hlen : readings.length = readings'.length)
    (h : readReadings ft ev i reqs readings = .ok (true, out)) :
    ∃ out', readReadings ft ev i reqs readings' = .ok (true, out') := by
  induction reqs generalizing i readings readings' out with
  | nil => exact ⟨readings', rfl⟩
  | cons req reqs ih =>
    cases readings with
    | nil => cases h
    | cons reading readings =>
      obtain ⟨reading', rest', rfl⟩ := List.exists_cons_of_length_eq_add_one hlen.symm
      obtain ⟨value, hload, h⟩ := Checked.bind_eq_ok.mp h
      split at h
      case h_2 => cases h
      case h_1 stored hpop =>
        obtain ⟨⟨result, rest⟩, hrest, h⟩ := Checked.bind_eq_ok.mp h
        cases h
        obtain ⟨out', hout'⟩ := ih (by simpa using hlen) hrest
        have hfst :
            (populateValue ft { reading' with type := req.type, origin := ev.origin } value).1 =
              (populateValue ft { reading with type := req.type, origin := ev.origin } value).1 :=
          populateValue_fst ft (Eq.refl req.type) value
        rw [hpop] at hfst
        generalize hpop' : populateValue ft
          { reading' with type := req.type, origin := ev.origin } value = stored' at hfst
        obtain ⟨ok, stored'⟩ := stored'
        cases hfst
        refine ⟨stored' :: out', Checked.bind_eq_ok.mpr ⟨value, hload, ?_⟩⟩
        simp only [hpop', hout']
        rfl

/-- Nor does whether a handler accepts a reply. -/
theorem userRepgetEventRead_true_congr {ft : FloatText}
    {readings readings' out : List CommandResult} {devname : Text}
    {requests : List CommandRequest} {input : Text}
    (hlen : readings.length = readings'.length)
    (h : userRepgetEventRead ft readings devname requests input = .ok (true, out)) :
    ∃ out', userRepgetEventRead ft readings' devname requests input = .ok (true, out') := by
  obtain ⟨ev, hev, h⟩ := Checked.bind_eq_ok.mp h
  split at h
  · obtain ⟨_, -, h⟩ := Checked.bind_eq_ok.mp h
    cases h
  · next hname =>
    obtain ⟨⟨result, rest⟩, hread, h⟩ := Checked.bind_eq_ok.mp h
    obtain ⟨u, hfree, h⟩ := Checked.bind_eq_ok.mp h
    cases h
    obtain ⟨out', hout'⟩ := readReadings_true_congr hlen hread
    refine ⟨out', Checked.bind_eq_ok.mpr ⟨ev, hev, ?_⟩⟩
    rw [if_neg hname]
    exact Checked.bind_eq_ok.mpr ⟨_, hout', Checked.bind_eq_ok.mpr ⟨u, hfree, rfl⟩⟩

end Zigbee
