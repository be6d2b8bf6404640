-- SUMMARY: The readers of user.c on replies with fewer or more values than the command has readings.
import ZigbeeService.Message.Malformed

/-!
# Short and long replies

The conversion loop runs over the requests and takes its values from the array of the message. Its
bound is the number of requests, and nothing compares that number with the size of the array. When a
value is not accepted, `user_push_event_read` goes on with a command that it has released.
-/

namespace Zigbee

open CLib

-- ---------------------------------------------------------------------------
-- Specification
-- ---------------------------------------------------------------------------

/-- `populateValue` accepts the text at this type. -/
def ValueAccepted (ft : FloatText) (type : PropertyType) (value : Text) : Prop :=
  (populateValue ft { CommandResult.zero with type := type } value).1 = true

/-- Every value that has a request is accepted at the type of the request. -/
def AllAccepted (ft : FloatText) (reqs : List CommandRequest) (values : List Text) : Prop :=
  ∀ p ∈ reqs.zip values, ValueAccepted ft p.1.type p.2

instance (ft : FloatText) (type : PropertyType) (value : Text) :
    Decidable (ValueAccepted ft type value) :=
  inferInstanceAs (Decidable (_ = true))

instance (ft : FloatText) (reqs : List CommandRequest) (values : List Text) :
    Decidable (AllAccepted ft reqs values) :=
  inferInstanceAs (Decidable (∀ p ∈ reqs.zip values, ValueAccepted ft p.1.type p.2))

/-- What a reader makes of an event for a list of requests, when it goes by the number of values. -/
structure ByCount (ft : FloatText) (ev : SensorEvent) (reqs : List CommandRequest)
    (result : Checked (Option (List CommandResult))) : Prop where
  inBounds : ∀ e, result ≠ .error e
  short : ev.size.toNat < reqs.length → result = .ok none
  enough : reqs.length ≤ ev.size.toNat →
    ((∃ readings, result = .ok (some readings)) ↔ AllAccepted ft reqs ev.values)
  reading : ∀ readings, result = .ok (some readings) →
    ReadingsOf ft ev.origin reqs ev.values readings

/-- The array has a value for every request, or the loop stops at a value that is not accepted. -/
def StaysInArray (ft : FloatText) (reqs : List CommandRequest) (values : List Text) : Prop :=
  reqs.length ≤ values.length ∨ ¬ AllAccepted ft reqs values

/-- The array has a value for every request, and each is accepted. -/
def EnoughAccepted (ft : FloatText) (reqs : List CommandRequest) (values : List Text) : Prop :=
  reqs.length ≤ values.length ∧ AllAccepted ft reqs values

/-- `user_repget_event_read` as its caller sees it: the readings count when it returned true. -/
def repgetReadings (ft : FloatText) (readings : List CommandResult) (devname : Text)
    (requests : List CommandRequest) (input : Text) : Checked (Option (List CommandResult)) := do
  let (result, readings) ← userRepgetEventRead ft readings devname requests input
  .ok (if result then some readings else none)

/-- The values of the event that `user_push_event_read` returned. -/
def pushReadings (ft : FloatText) (svc : EdgexService) (input : Text) :
    Checked (Option (List CommandResult)) := do
  let event ← userPushEventRead ft svc input
  .ok (event.map UserPushEvent.values)

-- ---------------------------------------------------------------------------
-- The conversion loop
-- ---------------------------------------------------------------------------

theorem ValueAccepted.iff_populateValue {ft : FloatText} (res : CommandResult) (value : Text) :
    ValueAccepted ft res.type value ↔ (populateValue ft res value).1 = true := by
  have h := populateValue_fst ft
    (show { CommandResult.zero with type := res.type }.type = res.type from rfl) value
  rw [ValueAccepted, h]

theorem SensorEvent.loadValue_of_lt {ev : SensorEvent} {i : Nat} (h : i < ev.values.length) :
    ev.loadValue i = .ok ev.values[i] := by
  unfold values at h
  obtain ⟨name, origin, command, size, value⟩ := ev
  cases value with
  | none => cases h
  | some arr =>
    dsimp only [cellsOf] at h
    simp only [loadValue, ValueArray.load, List.getElem?_eq_getElem h]
    rfl

theorem SensorEvent.loadValue_of_le {ev : SensorEvent} {i : Nat} (h : ev.values.length ≤ i) :
    ∃ e, ev.loadValue i = .error e := by
  cases hload : ev.loadValue i with
  | error e => exact ⟨e, rfl⟩
  | ok v => exact absurd (SensorEvent.loadValue_eq_ok.mp ⟨v, hload⟩) (Nat.not_lt.mpr h)

/-- The three ways in which the loop ends, from index `i` on. -/
theorem readReadings_cases (ft : FloatText) (ev : SensorEvent) (i : Nat)
    {reqs : List CommandRequest} {readings : List CommandResult}
    (hlen : readings.length = reqs.length) :
    (AllAccepted ft reqs (ev.values.drop i) ∧ reqs.length ≤ (ev.values.drop i).length ∧
        ∃ out, readReadings ft ev i reqs readings = .ok (true, out)) ∨
      (AllAccepted ft reqs (ev.values.drop i) ∧ (ev.values.drop i).length < reqs.length ∧
        ∃ e, readReadings ft ev i reqs readings = .error e) ∨
      (¬ AllAccepted ft reqs (ev.values.drop i) ∧
        ∃ out, readReadings ft ev i reqs readings = .ok (false, out)) := by
  induction reqs generalizing i readings with
  | nil => exact .inl ⟨by simp [AllAccepted], Nat.zero_le _, readings, rfl⟩
  | cons req reqs ih =>
    obtain ⟨reading, readings, rfl⟩ := List.exists_cons_of_length_eq_add_one hlen
    rcases Nat.lt_or_ge i ev.values.length with hlt | hge
    · have hdrop := List.drop_eq_getElem_cons hlt
      have hload := SensorEvent.loadValue_of_lt hlt
      have hacc : ValueAccepted ft req.type ev.values[i] ↔ (populateValue ft
          { reading with type := req.type, origin := ev.origin } ev.values[i]).1 = true :=
        ValueAccepted.iff_populateValue { reading with type := req.type, origin := ev.origin } _
      have hall : AllAccepted ft (req :: reqs) (ev.values.drop i) ↔
          ValueAccepted ft req.type ev.values[i] ∧ AllAccepted ft reqs (ev.values.drop (i + 1)) := by
        rw [hdrop, AllAccepted, List.zip_cons_cons, List.forall_mem_cons]
        rfl
      rw [hall, hdrop, readReadings, hload, Checked.ok_bind]
      rcases hpop : populateValue ft { reading with type := req.type, origin := ev.origin }
        ev.values[i] with ⟨ok, stored⟩
      rw [hpop] at hacc
      dsimp only at hacc
      cases ok with
      | false => exact .inr (.inr ⟨fun h => absurd (hacc.mp h.1) (by decide), _, rfl⟩)
      | true =>
        have haccepted := hacc.mpr rfl
        simp only [haccepted, true_and, List.length_cons]
        rcases ih (i + 1) (by simpa using hlen) with
          ⟨hrest, hle, out, hout⟩ | ⟨hrest, hle, e, hout⟩ | ⟨hrest, out, hout⟩
        · exact .inl ⟨hrest, Nat.succ_le_succ hle, _, by rw [hout]; rfl⟩
        · exact .inr (.inl ⟨hrest, Nat.succ_lt_succ hle, e, by rw [hout]; rfl⟩)
        · exact .inr (.inr ⟨hrest, _, by rw [hout]; rfl⟩)
    · -- Behind the last value there is nothing to convert.
      obtain ⟨e, hload⟩ := SensorEvent.loadValue_of_le hge
      have hdrop := List.drop_eq_nil_of_le hge
      refine .inr (.inl ⟨by simp [AllAccepted, hdrop], by simp [hdrop], e, ?_⟩)
      rw [readReadings, hload]
      rfl

/-- What an accepting loop stored, whether the event has an array or not. -/
theorem readReadings_readingsOf_values {ft : FloatText} {ev : SensorEvent}
    {reqs : List CommandRequest} {readings out : List CommandResult}
    (hlen : readings.length = reqs.length)
    (h : readReadings ft ev 0 reqs readings = .ok (true, out)) :
    ReadingsOf ft ev.origin reqs ev.values out := by
  cases hvalue : ev.value with
  | some arr =>
    have hof := readReadings_readingsOf hvalue hlen h
    rwa [List.drop_zero, show arr.cells = ev.values by simp [SensorEvent.values, hvalue, cellsOf]]
      at hof
  | none =>
    cases reqs with
    | nil =>
      cases h
      rw [List.length_eq_zero_iff.mp hlen]
      trivial
    | cons req reqs =>
      obtain ⟨reading, readings, rfl⟩ := List.exists_cons_of_length_eq_add_one hlen
      simp only [readReadings, SensorEvent.loadValue, hvalue] at h
      cases h

-- ---------------------------------------------------------------------------
-- The readers
-- ---------------------------------------------------------------------------

/-- What `user_repget_event_read` does behind the parser: convert, release the event, report. -/
def convert (ft : FloatText) (ev : SensorEvent) (reqs : List CommandRequest)
    (readings : List CommandResult) : Checked (Option (List CommandResult)) := do
  let (result, readings) ← readReadings ft ev 0 reqs readings
  freeEvent ev
  .ok (if result then some readings else none)

theorem repgetReadings_eq {ft : FloatText} {ev : SensorEvent} {s : Text}
    (hev : takeEvent s = .ok ev) (requests : List CommandRequest) (readings : List CommandResult) :
    repgetReadings ft readings ev.name requests s = convert ft ev requests readings := by
  rw [repgetReadings, userRepgetEventRead, hev, Checked.ok_bind, if_neg (not_not.mpr rfl), convert]
  simp only [bind_assoc, Checked.ok_bind]

/-- What `user_push_event_read` does behind the parser and the lookups. -/
def convertPush (ft : FloatText) (ev : SensorEvent) (reqs : List CommandRequest) :
    Checked (Option (List CommandResult)) := do
  let (result, values) ← readReadings ft ev 0 reqs (List.replicate reqs.length CommandResult.zero)
  if result then
    freeEvent ev
    .ok (some values)
  else .error .danglingPointer

theorem pushReadings_eq {ft : FloatText} {svc : EdgexService} {ev : SensorEvent} {s : Text}
    {dev : EdgexDevice} {reqs : List CommandRequest} (hev : takeEvent s = .ok ev)
    (hdev : svc.deviceByname ev.name = some dev)
    (hreqs : dev.findcommand ev.commandDevice = some reqs) :
    pushReadings ft svc s = convertPush ft ev reqs := by
  rw [pushReadings, userPushEventRead, hev, Checked.ok_bind, hdev]
  simp only [hreqs, convertPush, bind_assoc]
  congr 1
  funext ⟨result, values⟩
  cases result with
  | false => rfl
  | true =>
    rw [if_pos rfl, if_pos rfl, bind_assoc]
    rfl

/-- A message of another device, and a push for an unknown device or command, are turned away before
the array is looked at. -/
theorem repgetReadings_other {ft : FloatText} {ev : SensorEvent} {s : Text}
    (hev : takeEvent s = .ok ev) (hcomplete : ev.Complete) {devname : Text}
    (hname : ev.name ≠ devname) (requests : List CommandRequest) (readings : List CommandResult) :
    repgetReadings ft readings devname requests s = .ok none := by
  rw [repgetReadings, userRepgetEventRead, hev, Checked.ok_bind, if_pos hname,
    hcomplete.freeEvent]
  rfl

theorem pushReadings_unknown {ft : FloatText} {svc : EdgexService} {ev : SensorEvent} {s : Text}
    (hev : takeEvent s = .ok ev) (hcomplete : ev.Complete)
    (hnone : ((svc.deviceByname ev.name).bind fun dev => dev.findcommand ev.commandDevice) = none) :
    pushReadings ft svc s = .ok none := by
  rw [pushReadings, userPushEventRead, hev, Checked.ok_bind, hcomplete.freeEvent]
  cases hdev : svc.deviceByname ev.name with
  | none => rfl
  | some dev =>
    rw [hdev, Option.bind_some] at hnone
    simp only [hnone]
    rfl

section Convert

variable {ft : FloatText} {ev : SensorEvent} {reqs : List CommandRequest}

/-- A loop that accepts every value reads the event by its count. -/
theorem byCount_accepted (hcomplete : ev.Complete) {readings out : List CommandResult}
    (hlen : readings.length = reqs.length) (h : EnoughAccepted ft reqs ev.values)
    (hout : readReadings ft ev 0 reqs readings = .ok (true, out)) :
    ByCount ft ev reqs (.ok (some out)) where
  inBounds := by simp
  short hshort := by
    have hsize : ev.size.toNat = ev.values.length := hcomplete.symm
    have hle := h.1
    omega
  enough _ := iff_of_true ⟨out, rfl⟩ h.2
  reading := by
    rintro _ ⟨⟩
    exact readReadings_readingsOf_values hlen hout

/-- Behind a complete event, going by the count is staying in the array. -/
theorem byCount_convert_iff (hcomplete : ev.Complete) {readings : List CommandResult}
    (hlen : readings.length = reqs.length) :
    ByCount ft ev reqs (convert ft ev reqs readings) ↔ StaysInArray ft reqs ev.values := by
  have hcases := readReadings_cases ft ev 0 hlen
  rw [List.drop_zero] at hcases
  rcases hcases with ⟨hall, hle, out, hout⟩ | ⟨hall, hlt, e, hout⟩ | ⟨hall, out, hout⟩
  · rw [convert, hout, Checked.ok_bind, hcomplete.freeEvent]
    exact iff_of_true (byCount_accepted hcomplete hlen ⟨hle, hall⟩ hout) (.inl hle)
  · rw [convert, hout, Checked.error_bind]
    refine iff_of_false (fun h => h.inBounds e rfl) ?_
    rintro (hle | hno)
    · omega
    · exact hno hall
  · rw [convert, hout, Checked.ok_bind, hcomplete.freeEvent]
    refine iff_of_true ⟨by simp, fun _ => rfl, fun _ => iff_of_false ?_ hall, ?_⟩ (.inr hall)
    · rintro ⟨readings', h⟩
      cases h
    · rintro readings' ⟨⟩

/-- For a push every value has to be accepted too. -/
theorem byCount_convertPush_iff (hcomplete : ev.Complete) :
    ByCount ft ev reqs (convertPush ft ev reqs) ↔ EnoughAccepted ft reqs ev.values := by
  have hlen : (List.replicate reqs.length CommandResult.zero).length = reqs.length :=
    List.length_replicate
  have hcases := readReadings_cases ft ev 0 hlen
  rw [List.drop_zero] at hcases
  rcases hcases with ⟨hall, hle, out, hout⟩ | ⟨hall, hlt, e, hout⟩ | ⟨hall, out, hout⟩
  · rw [convertPush, hout, Checked.ok_bind, hcomplete.freeEvent]
    exact iff_of_true (byCount_accepted hcomplete hlen ⟨hle, hall⟩ hout) ⟨hle, hall⟩
  · rw [convertPush, hout, Checked.error_bind]
    exact iff_of_false (fun h => h.inBounds e rfl) fun h => absurd h.1 (by omega)
  · rw [convertPush, hout, Checked.ok_bind]
    exact iff_of_false (fun h => h.inBounds .danglingPointer rfl) fun h => hall h.2

end Convert

/-- A well-formed message is read by its count, for a list of requests, exactly when it has a value
for every request or one of its values is not accepted; a push, exactly when it has a value for
every request and each is accepted. A message that is not for the caller is turned away. -/
theorem readers_byCount_iff {s : Text} (hs : s.length < 2 ^ 31) (hwf : EventWellFormed s) :
    ∃ ev, takeEvent s = .ok ev ∧ ev.values.length = ev.size.toNat ∧
      (∀ ft requests readings, readings.length = requests.length →
        (ByCount ft ev requests (repgetReadings ft readings ev.name requests s) ↔
          StaysInArray ft requests ev.values)) ∧
      (∀ ft svc dev reqs, svc.deviceByname ev.name = some dev →
        dev.findcommand ev.commandDevice = some reqs →
        (ByCount ft ev reqs (pushReadings ft svc s) ↔ EnoughAccepted ft reqs ev.values)) ∧
      (∀ ft devname requests readings, ev.name ≠ devname →
        repgetReadings ft readings devname requests s = .ok none) ∧
      ∀ ft svc, ((svc.deviceByname ev.name).bind fun dev =>
          dev.findcommand ev.commandDevice) = none →
        pushReadings ft svc s = .ok none := by
  rcases takeEvent_cases hs with ⟨-, ev, hev, hcomplete⟩ | ⟨hnot, -⟩
  · refine ⟨ev, hev, hcomplete, ?_, ?_, ?_, ?_⟩
    · intro ft requests readings hlen
      rw [repgetReadings_eq hev]
      exact byCount_convert_iff hcomplete hlen
    · intro ft svc dev reqs hdev hreqs
      rw [pushReadings_eq hev hdev hreqs]
      exact byCount_convertPush_iff hcomplete
    · intro ft devname requests readings hname
      exact repgetReadings_other hev hcomplete hname requests readings
    · intro ft svc hnone
      exact pushReadings_unknown hev hcomplete hnone
  · exact absurd hwf hnot

theorem readers_byCount_iff_sensorOne :
    let s := lit "RandomDevice1#60#SensorOne#1#value#30#"
    let requests := [⟨lit "SensorOne", .int32⟩]
    ∃ ev, takeEvent s = .ok ev ∧
      ByCount FloatText.empty ev requests
        (repgetReadings FloatText.empty [CommandResult.zero] ev.name requests s) ∧
      ByCount FloatText.empty ev requests
        (pushReadings FloatText.empty ⟨fun _ => some ⟨fun _ => some requests⟩⟩ s) := by
  obtain ⟨ev, hev, -, hrepget, hpush, -⟩ := readers_byCount_iff
    (s := lit "RandomDevice1#60#SensorOne#1#value#30#") (by decide)
    ⟨lit "RandomDevice1", lit "60", lit "SensorOne", lit "1", lit "value#30#", by decide,
      by decide, by decide, by decide⟩
  refine ⟨ev, hev, (hrepget _ _ _ rfl).mpr (.inl ?_), (hpush _ _ _ _ rfl rfl).mpr ⟨?_, ?_⟩⟩
  · cases hev
    decide
  · cases hev
    decide
  · cases hev
    decide

/-- One value for a command of two readings: the loop reads behind the array. A pushed value that is
not a number: the reader goes on with a command that it has released. -/
theorem readers_short_or_rejected :
    let one : CommandRequest := ⟨lit "SensorOne", .int32⟩
    let two : CommandRequest := ⟨lit "SensorTwo", .int32⟩
    let short := lit "RandomDevice1#60#SensorOne#1#value#30#"
    let rejected := lit "RandomDevice1#60#SensorOne#1#value#hot#"
    (∃ ev, takeEvent short = .ok ev ∧ ev.values.length = ev.size.toNat ∧
      repgetReadings FloatText.empty [CommandResult.zero, CommandResult.zero] ev.name [one, two]
        short = .error .outOfBounds ∧
      ¬ ByCount FloatText.empty ev [one, two]
        (repgetReadings FloatText.empty [CommandResult.zero, CommandResult.zero] ev.name [one, two]
          short)) ∧
      ∃ ev, takeEvent rejected = .ok ev ∧ ev.values.length = ev.size.toNat ∧
        pushReadings FloatText.empty ⟨fun _ => some ⟨fun _ => some [one]⟩⟩ rejected =
          .error .danglingPointer ∧
        ¬ ByCount FloatText.empty ev [one]
          (pushReadings FloatText.empty ⟨fun _ => some ⟨fun _ => some [one]⟩⟩ rejected) := by
  intro one two short rejected
  constructor
  · refine ⟨⟨lit "RandomDevice1", 60, lit "SensorOne", 1, some ⟨1, [lit "30"], le_rfl⟩⟩, by decide,
      rfl, ?_⟩
    have hfault : repgetReadings FloatText.empty [CommandResult.zero, CommandResult.zero]
        (lit "RandomDevice1") [one, two] short = .error .outOfBounds := by decide
    exact ⟨hfault, fun h => h.inBounds _ hfault⟩
  · refine ⟨⟨lit "RandomDevice1", 60, lit "SensorOne", 1, some ⟨1, [lit "hot"], le_rfl⟩⟩,
      by decide, rfl, ?_⟩
    have hfault : pushReadings FloatText.empty ⟨fun _ => some ⟨fun _ => some [one]⟩⟩ rejected =
        .error .danglingPointer := by decide
    exact ⟨hfault, fun h => h.inBounds _ hfault⟩

end Zigbee
