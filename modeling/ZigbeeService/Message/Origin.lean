-- SUMMARY: The origin of a message on its way into the readings and the CBOR event that is made of them.
import ZigbeeService.Message.Counts
import ZigbeeService.Message.RoundTrip
import ZigbeeService.Sdk.Event

/-!
# Origins

The origin of a message passes through `atoi`, so through an `int`, into a field of 64 bits. From
there on it is copied.
-/

namespace Zigbee

open CLib

-- ---------------------------------------------------------------------------
-- Specification
-- ---------------------------------------------------------------------------

/-- Every CBOR event that is made of the values has this origin in each of its readings. -/
def EmitsOrigin (origin : UInt64) (values : List CommandResult) : Prop :=
  ∀ (ft : FloatText) (L : Type) (ld : LongDouble L) (cb : Libcbor), cb.Bounded →
    ∀ timenow device_name commandinfo doTransforms item values',
    edgexDataProcessEvent ft ld cb timenow device_name commandinfo values doTransforms =
        .ok (some (.cbor item), values') →
      ∃ event, cborEvent? item = some event ∧ event.readings.length = commandinfo.nreqs ∧
        ∀ rdg ∈ event.readings, rdg.origin = origin

/-- The origin reaches the event, the readings of both readers, and what is emitted of them. -/
structure OriginKept (s : Text) (origin : UInt64) : Prop where
  stored : ∃ ev, takeEvent s = .ok ev ∧ ev.origin = origin
  repget : ∀ ft readings devname requests readings', readings.length = requests.length →
    userRepgetEventRead ft readings devname requests s = .ok (true, readings') →
      (∀ reading ∈ readings', reading.origin = origin) ∧ EmitsOrigin origin readings'
  push : ∀ ft svc event, userPushEventRead ft svc s = .ok (some event) →
    (∀ reading ∈ event.values, reading.origin = origin) ∧ EmitsOrigin origin event.values

-- ---------------------------------------------------------------------------
-- The number
-- ---------------------------------------------------------------------------

theorem uint64_toNat_ofInt (x : Int) : (UInt64.ofInt x).toNat = (x % 2 ^ 64).toNat := by
  rw [UInt64.ofInt, UInt64.toNat_ofNat']
  omega

/-- `atoi` on any printed number: the `long` it clamps to, cut down to an `int`. -/
theorem atoi_decimal_eq (n : Nat) : atoi (decimal n) = toInt32 (min (2 ^ 63 - 1) (n : Int)) := by
  have hclamp : clampLong n = min (2 ^ 63 - 1) (n : Int) := by
    simp only [clampLong]
    omega
  simp only [atoi, scanInteger_decimal, hclamp]

/-- The way through an `int` keeps the numbers below `2 ^ 31`. It also keeps the largest one: that
is clamped to a `long` whose low bits are all set, an `int` of -1. -/
theorem uint64_ofInt_atoi_decimal {n : UInt64} :
    UInt64.ofInt (atoi (decimal n.toNat)) = n ↔ n.toNat < 2 ^ 31 ∨ n.toNat = 2 ^ 64 - 1 := by
  have hn := n.toNat_lt
  obtain ⟨hlow, hhigh⟩ := toInt32_bounds (min (2 ^ 63 - 1) (n.toNat : Int))
  have hmod : toInt32 (min (2 ^ 63 - 1) (n.toNat : Int)) % 2 ^ 32 =
      min (2 ^ 63 - 1) (n.toNat : Int) % 2 ^ 32 := Int.bmod_emod
  rw [← UInt64.toNat_inj, uint64_toNat_ofInt, atoi_decimal_eq]
  constructor
  · intro h
    omega
  · rintro (h | h)
    · omega
    · omega

-- ---------------------------------------------------------------------------
-- The readings
-- ---------------------------------------------------------------------------

theorem ReadingOf.origin {ft : FloatText} {origin : UInt64} {req : CommandRequest} {value : Text}
    {reading : CommandResult} (h : ReadingOf ft origin req value reading) :
    reading.origin = origin := by
  obtain ⟨prior, -, horigin, hpop⟩ := h
  have hframe := (populateValue_frame ft prior value).2
  rw [hpop] at hframe
  exact hframe.trans horigin

theorem ReadingsOf.origin {ft : FloatText} {origin : UInt64} {reqs : List CommandRequest}
    {values : List Text} {readings : List CommandResult}
    (h : ReadingsOf ft origin reqs values readings) :
    ∀ reading ∈ readings, reading.origin = origin := by
  induction reqs generalizing values readings with
  | nil =>
    cases readings with
    | nil => simp
    | cons reading readings => exact h.elim
  | cons req reqs ih =>
    cases values with
    | nil => exact h.elim
    | cons value values =>
      cases readings with
      | nil => exact h.elim
      | cons reading readings =>
        rw [List.forall_mem_cons]
        exact ⟨h.1.origin, ih h.2⟩

/-- What an accepted push holds: the readings of the values of its event. -/
theorem userPushEventRead_some {ft : FloatText} {svc : EdgexService} {s : Text}
    {event : UserPushEvent} (h : userPushEventRead ft svc s = .ok (some event)) :
    ∃ ev dev reqs, takeEvent s = .ok ev ∧ svc.deviceByname ev.name = some dev ∧
      dev.findcommand ev.commandDevice = some reqs ∧ event.deviceName = ev.name ∧
      event.resourceName = ev.commandDevice ∧
      ReadingsOf ft ev.origin reqs ev.values event.values := by
  obtain ⟨ev, hev, h⟩ := Checked.bind_eq_ok.mp h
  split at h
  · obtain ⟨_, -, h⟩ := Checked.bind_eq_ok.mp h
    cases h
  · next dev hdev =>
    split at h
    · obtain ⟨_, -, h⟩ := Checked.bind_eq_ok.mp h
      cases h
    · next reqs hreqs =>
      obtain ⟨⟨result, values⟩, hread, h⟩ := Checked.bind_eq_ok.mp h
      cases result with
      | false => cases h
      | true =>
        obtain ⟨_, -, h⟩ := Checked.bind_eq_ok.mp h
        cases h
        exact ⟨ev, dev, reqs, hev, hdev, hreqs, rfl, rfl,
          readReadings_readingsOf_values List.length_replicate hread⟩

/-- Readings with an origin of their own are emitted with it. -/
theorem emitsOrigin {origin : UInt64} (hne : origin ≠ 0) {values : List CommandResult}
    (hvalues : ∀ value ∈ values, value.origin = origin) : EmitsOrigin origin values := by
  intro ft L ld cb hcb timenow device_name commandinfo doTransforms item values' h
  obtain ⟨⟨passed, checked⟩, hcheck, h⟩ := Defined.bind_eq_ok.mp h
  cases passed with
  | false => cases h
  | true =>
    have hpassed := passed_of_checkValues hcheck
    have horigin : ∀ rdg ∈ commandinfo.reqs.zip checked, rdg.2.origin = origin := by
      rw [hpassed.forall_iff]
      intro i req value value' hat
      rw [transformed_origin hat.transform]
      exact hvalues value (List.mem_of_getElem? hat.given)
    dsimp only at h
    rw [if_pos rfl] at h
    split at h
    case isFalse => cases h
    case isTrue =>
      cases h
      have hnonzero : ∀ rdg ∈ commandinfo.reqs.zip values', rdg.2.origin ≠ 0 := by
        intro rdg hrdg
        rw [horigin rdg hrdg]
        exact hne
      refine ⟨_, (cborEvent?_cborEvent ft timenow hcb device_name hpassed.length.le).trans
        (if_pos hnonzero), ?_, ?_⟩
      · rw [List.length_map, hpassed.length]
      · intro r hr
        obtain ⟨rdg, hrdg, rfl⟩ := List.mem_map.mp hr
        exact horigin rdg hrdg

-- ---------------------------------------------------------------------------
-- The exact condition
-- ---------------------------------------------------------------------------

/-- The origin of a message that is parsed is kept up to the emitted readings exactly when it is
below `2 ^ 31`, or the largest number of 64 bits. -/
theorem originKept_iff {name command size body : Text} {origin : UInt64} {ev : SensorEvent}
    (hne : origin ≠ 0)
    (hfields : ∀ f ∈ [name, decimal origin.toNat, command, size], hash ∉ f)
    (hlen : (fields [name, decimal origin.toNat, command, size] ++ body).length < 2 ^ 31)
    (hev : takeEvent (fields [name, decimal origin.toNat, command, size] ++ body) = .ok ev) :
    OriginKept (fields [name, decimal origin.toNat, command, size] ++ body) origin ↔
      origin.toNat < 2 ^ 31 ∨ origin.toNat = 2 ^ 64 - 1 := by
  have horigin : ev.origin = UInt64.ofInt (atoi (decimal origin.toNat)) := by
    rw [takeEvent_header hlen hfields] at hev
    obtain ⟨value, -, hev⟩ := Checked.bind_eq_ok.mp hev
    cases hev
    rfl
  rw [← uint64_ofInt_atoi_decimal, ← horigin]
  constructor
  · rintro ⟨⟨ev', hev', hstored⟩, -, -⟩
    cases hev.symm.trans hev'
    exact hstored
  · intro hstored
    refine ⟨⟨ev, hev, hstored⟩, ?_, ?_⟩
    · intro ft readings devname requests readings' hreadings h
      obtain ⟨ev', hev', -, hread⟩ := userRepgetEventRead_true h
      cases hev.symm.trans hev'
      have hall := (readReadings_readingsOf_values hreadings hread).origin
      rw [hstored] at hall
      exact ⟨hall, emitsOrigin hne hall⟩
    · intro ft svc event h
      obtain ⟨ev', dev, reqs, hev', -, -, -, -, hof⟩ := userPushEventRead_some h
      cases hev.symm.trans hev'
      have hall := hof.origin
      rw [hstored] at hall
      exact ⟨hall, emitsOrigin hne hall⟩

theorem originKept_iff_sixty :
    OriginKept (fields [lit "RandomDevice1", decimal 60, lit "SensorOne", lit "1"] ++
      lit "value#30#") 60 :=
  have hev : takeEvent (fields [lit "RandomDevice1", decimal 60, lit "SensorOne", lit "1"] ++
      lit "value#30#") =
        .ok ⟨lit "RandomDevice1", 60, lit "SensorOne", 1, some ⟨1, [lit "30"], le_rfl⟩⟩ := by
    decide
  have hne : (60 : UInt64) ≠ 0 := by decide
  (originKept_iff hne (by decide) (by decide) hev).mpr (.inl (by decide))

/-- A timestamp in milliseconds comes back as a number above `2 ^ 63`. -/
theorem takeEvent_milliseconds :
    takeEvent (lit "RandomDevice1#1600000000000#SensorOne#1#value#30#") =
        .ok ⟨lit "RandomDevice1", 18446744071686750208, lit "SensorOne", 1,
          some ⟨1, [lit "30"], le_rfl⟩⟩ ∧
      ¬ OriginKept (lit "RandomDevice1#1600000000000#SensorOne#1#value#30#") 1600000000000 := by
  have hev : takeEvent (lit "RandomDevice1#1600000000000#SensorOne#1#value#30#") =
      .ok ⟨lit "RandomDevice1", 18446744071686750208, lit "SensorOne", 1,
        some ⟨1, [lit "30"], le_rfl⟩⟩ := by decide
  refine ⟨hev, ?_⟩
  rintro ⟨⟨ev, hev', horigin⟩, -, -⟩
  cases hev.symm.trans hev'
  exact absurd horigin (by decide)

end Zigbee
