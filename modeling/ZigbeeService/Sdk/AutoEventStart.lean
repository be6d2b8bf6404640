-- SUMMARY: Starting automatic events: how often they are asked to fire, from the text of their frequency (autoevent.c).
import ZigbeeService.Devices.Dup
import ZigbeeService.Devices.Forcmd
import ZigbeeService.Sdk.AutoEvent

/-!
# The intervals of automatic events

`parseTime` and `edgex_device_autoevent_start`. An interval is counted in milliseconds, the period
of the scheduler in nanoseconds. Both are 64 bits wide, and neither product is checked.
-/

namespace Zigbee

open CLib

-- ---------------------------------------------------------------------------
-- The functions
-- ---------------------------------------------------------------------------

/-- `suffixes`. -/
def suffixes : List (Text × UInt64) :=
  [(lit "ms", 1), (lit "s", 1000), (lit "m", 60000), (lit "h", 3600000)]

/-- `parseTime`. An `unsigned long` has 64 bits. -/
def parseTime (spec : Text) : UInt64 :=
  let (fnum, fend) := strtoul10 spec
  match suffixes.find? fun suffix => fend = suffix.1 with
  | some suffix => UInt64.ofNat fnum * suffix.2
  | none => 0

/-- `IOT_MS_TO_NS`. -/
def iotMsToNs (ms : UInt64) : UInt64 := ms * 1000000

/-- `edgex_autoimpl`, with what its start looks at as well. -/
structure TimedAutoimpl extends EdgexAutoimpl where
  interval : UInt64
  protocols : List Protocol

/-- `edgex_device_autoevents`: one event of a device, and its `impl` unless that is NULL. -/
structure DeviceAutoevent extends AutoEvent where
  impl : Option TimedAutoimpl

/-- As `edgex_device_dup` and the parser leave an event. -/
def DeviceAutoevent.fresh (ae : AutoEvent) : DeviceAutoevent := { ae with impl := none }

/-- The arguments of an `edgex_device_autoevent_start_handler`, but for the driver's own data. -/
structure AutoevstartCall where
  devname : Text
  protocols : List Protocol
  resourceName : Text
  nreadings : Nat
  requests : List DeviceCommandRequest
  interval : UInt64
  onChange : Bool

/-- `starter`: the call it makes. -/
def starter (ai : TimedAutoimpl) : AutoevstartCall where
  devname := ai.device
  protocols := ai.protocols
  resourceName := ai.resource.name
  nreadings := ai.resource.nreqs
  requests := ai.resource.requests
  interval := ai.interval
  onChange := ai.onChange

/-- What becomes of an event when the events of its device are started. -/
inductive StartEffect where
  /-- `iot_log_error`. -/
  | logError (message : Text)
  /-- `iot_threadpool_add_work` with `starter`. -/
  | addWork (ai : TimedAutoimpl)
  /-- `iot_schedule_create` with `ae_runner`, and `iot_schedule_add`. -/
  | schedule (ai : TimedAutoimpl) (period : UInt64)

/-- The branch for an event without an `impl`: the new one, or the message that is logged. -/
def newAutoimpl (dev : DeviceInfo) (prof : DeviceProfile) (ae : AutoEvent) :
    Checked (Except Text TimedAutoimpl × DeviceProfile) := do
  let (cmd, prof) ← edgexDeviceprofileFindcommand ae.resource prof true
  match cmd with
  | none =>
    return (.error (lit "AutoEvents: device " ++ dev.name ++ lit ": no resource " ++ ae.resource ++
      lit "."), prof)
  | some cmd =>
    let interval := parseTime ae.frequency
    if interval = 0 then
      return (.error (lit "AutoEvents: device " ++ dev.name ++ lit ": unable to parse " ++
        ae.frequency ++ lit " for frequency."), prof)
    else
      return (.ok { EdgexAutoimpl.start cmd dev.name ae.onChange with
        interval := interval
        protocols := protocolsDup dev.protocols }, prof)

/-- `if (ae->impl->svc->autoevstart) …`. -/
def launch (autoevstart : Bool) (ai : TimedAutoimpl) : StartEffect :=
  if autoevstart then .addWork ai else .schedule ai (iotMsToNs ai.interval)

/-- One round of `edgex_device_autoevent_start`: what becomes of the event, the event, and the
profile. -/
def startAutoevent (autoevstart : Bool) (dev : DeviceInfo) (prof : DeviceProfile)
    (ae : DeviceAutoevent) : Checked (StartEffect × DeviceAutoevent × DeviceProfile) :=
  match ae.impl with
  | some ai => return (launch autoevstart ai, ae, prof)
  | none => do
    let (impl, prof) ← newAutoimpl dev prof ae.toAutoEvent
    match impl with
    | .error message => return (.logError message, ae, prof)
    | .ok ai => return (launch autoevstart ai, { ae with impl := some ai }, prof)

/-- `edgex_device_autoevent_start`, with all it does. The flag says whether a start handler is
registered. -/
def edgexDeviceAutoeventStartTimed (autoevstart : Bool) (dev : DeviceInfo) (prof : DeviceProfile) :
    List DeviceAutoevent → Checked (List StartEffect × List DeviceAutoevent × DeviceProfile)
  | [] => return ([], [], prof)
  | ae :: autos => do
    let (effect, ae, prof) ← startAutoevent autoevstart dev prof ae
    let (effects, autos, prof) ← edgexDeviceAutoeventStartTimed autoevstart dev prof autos
    return (effect :: effects, ae :: autos, prof)

/-- The events of a device, after it was added and their start was asked for any number of times. -/
inductive Autoevents : List DeviceAutoevent → Prop where
  | added (autos : List AutoEvent) : Autoevents (autos.map .fresh)
  | started {autoevstart : Bool} {dev : DeviceInfo} {prof prof' : DeviceProfile}
      {autos autos' : List DeviceAutoevent} {effects : List StartEffect} :
      Autoevents autos →
      edgexDeviceAutoeventStartTimed autoevstart dev prof autos = .ok (effects, autos', prof') →
      Autoevents autos'

-- ---------------------------------------------------------------------------
-- Specification
-- ---------------------------------------------------------------------------

/-- The units of time, in milliseconds. -/
def timeUnits : List (Text × Nat) :=
  [(lit "ms", 1), (lit "s", 1000), (lit "m", 60 * 1000), (lit "h", 60 * 60 * 1000)]

/-- The text is the decimal digits of a number and a unit. -/
def Amount (spec : Text) (n unit : Nat) : Prop :=
  ∃ digits suffix, spec = digits ++ suffix ∧ numeralIn 10 digits = some n ∧
    (suffix, unit) ∈ timeUnits

/-- What a millisecond counts for in the number that is handed on: the scheduler takes
nanoseconds. -/
def perMs (autoevstart : Bool) : Nat := if autoevstart then 1 else 10 ^ 6

/-- No `impl` is made and nothing is started. -/
def StartEffect.Rejected (effect : StartEffect) : Prop := ∃ message, effect = .logError message

/-- The event is to fire every so many milliseconds. -/
def StartEffect.Every (ms : Nat) : StartEffect → Prop
  | .logError _ => False
  | .addWork ai => (starter ai).interval.toNat = ms
  | .schedule ai period => ai.interval.toNat = ms ∧ period.toNat = ms * 10 ^ 6

/-- The event fires at the interval that its text denotes, where that is not zero and fits in 64
bits. Otherwise it is rejected. -/
structure ExactInterval (autoevstart : Bool) (spec : Text) (effect : StartEffect) : Prop where
  fits : ∀ n unit, Amount spec n unit → n ≠ 0 → n * unit * perMs autoevstart < 2 ^ 64 →
    effect.Every (n * unit)
  tooLarge : ∀ n unit, Amount spec n unit → n ≠ 0 → 2 ^ 64 ≤ n * unit * perMs autoevstart →
    effect.Rejected
  other : (∀ n unit, Amount spec n unit → n = 0) → effect.Rejected

/-- The text without white space and a sign in front. -/
def signless (spec : Text) : Text := (scanSign (spec.dropWhile isspace)).2

/-- The text, read without white space and a sign in front, denotes no time, or one that the product
wraps around to zero, or there is nothing in front and the time fits. -/
def Unwrapped (autoevstart : Bool) (spec : Text) : Prop :=
  ∀ n unit, Amount (signless spec) n unit →
    (n < 2 ^ 64 ∧ 2 ^ 64 ∣ n * unit) ∨
      (signless spec = spec ∧ n * unit * perMs autoevstart < 2 ^ 64)

-- ---------------------------------------------------------------------------
-- Reading a frequency
-- ---------------------------------------------------------------------------

section Frequency

variable {spec t : Text} {neg : Bool} {n unit : Nat}

/-- The units are those of the code, and none begins with a digit. -/
theorem suffix_of_timeUnit {suffix : Text} (h : (suffix, unit) ∈ timeUnits) :
    scanDigits 10 suffix = [] ∧
      suffixes.find? (fun s => suffix = s.1) = some (suffix, UInt64.ofNat unit) ∧
      0 < unit ∧ unit < 2 ^ 64 := by
  have hall : ∀ p ∈ timeUnits, scanDigits 10 p.1 = [] ∧
      suffixes.find? (fun s => p.1 = s.1) = some (p.1, UInt64.ofNat p.2) ∧
      0 < p.2 ∧ p.2 < 2 ^ 64 := by
    decide +kernel
  exact hall _ h

theorem timeUnit_of_suffix {suffix : Text} {factor : UInt64} (h : (suffix, factor) ∈ suffixes) :
    (suffix, factor.toNat) ∈ timeUnits := by
  have hall : ∀ p ∈ suffixes, (p.1, p.2.toNat) ∈ timeUnits := by decide +kernel
  exact hall _ h

/-- A text that denotes an amount of time has nothing in front of its digits. -/
theorem Amount.scanSign_eq (h : Amount t n unit) : scanSign (t.dropWhile isspace) = (false, t) := by
  obtain ⟨digits, suffix, rfl, hdigits, -⟩ := h
  obtain ⟨hne, hall, -⟩ := numeralIn_eq_some.mp hdigits
  cases digits with
  | nil => exact absurd rfl hne
  | cons c cs =>
    have hdigit : isdigit c = true := by
      rw [← digitVal_any_ten]
      exact hall c List.mem_cons_self
    exact scanSign_digits hdigit (cs ++ suffix)

theorem Amount.signless_eq (h : Amount t n unit) : signless t = t := by
  rw [signless, h.scanSign_eq]

/-- What `parseTime` makes of an amount of time behind white space and a sign. -/
theorem parseTime_of_amount (hsign : scanSign (spec.dropWhile isspace) = (neg, t))
    (h : Amount t n unit) :
    parseTime spec =
      UInt64.ofNat (clampULong (if neg then -(n : Int) else n)).toNat * UInt64.ofNat unit := by
  obtain ⟨digits, suffix, rfl, hdigits, hunit⟩ := h
  obtain ⟨hrest, hfind, -, -⟩ := suffix_of_timeUnit hunit
  rw [parseTime, strtoul10_of_numeralIn hsign hdigits hrest]
  dsimp only
  rw [hfind]

/-- Nothing but an amount of time, behind white space and a sign, is read as an interval. -/
theorem amount_of_parseTime (h : parseTime spec ≠ 0) : ∃ n unit, Amount (signless spec) n unit := by
  obtain ⟨digits, rest, hsplit, hall, hrest⟩ := scanDigits_split 10 (signless spec)
  have hsign : scanSign (spec.dropWhile isspace) =
      ((scanSign (spec.dropWhile isspace)).1, digits ++ rest) := by
    rw [← hsplit, signless]
  by_cases hnone : digits = []
  · -- no digits: the number is zero
    rw [hnone, List.nil_append] at hsign
    rw [parseTime, strtoul10_of_no_digits hsign hrest] at h
    dsimp only at h
    split at h
    · exact absurd (UInt64.zero_mul) h
    · exact absurd rfl h
  · have hdigits : numeralIn 10 digits = some (digitsValue 10 (digits.filterMap digitVal)) :=
      numeralIn_eq_some.mpr ⟨hnone, hall, rfl⟩
    rw [parseTime, strtoul10_of_numeralIn hsign hdigits hrest] at h
    dsimp only at h
    split at h
    · next suffix hfind =>
      have hmem := List.mem_of_find?_eq_some hfind
      obtain rfl : rest = suffix.1 := by simpa using List.find?_some hfind
      exact ⟨_, _, digits, _, hsplit, hdigits, timeUnit_of_suffix hmem⟩
    · exact absurd rfl h

/-- A number in range reaches the product as it is, or negated modulo `2 ^ 64`. -/
theorem ofNat_clampULong {x : Int} (h : x.natAbs < 2 ^ 64) :
    UInt64.ofNat (clampULong x).toNat = UInt64.ofInt x := by
  rw [clampULong, if_pos h, UInt64.ofInt]

theorem ofInt_natCast (n : Nat) : UInt64.ofInt n = UInt64.ofNat n := by
  have hmod : ((n : Int) % 2 ^ 64).toNat = n % 2 ^ 64 := by omega
  rw [UInt64.ofInt, hmod, UInt64.ofNat_mod_size]

/-- The product wraps around to zero where it is a multiple of `2 ^ 64`. -/
theorem ofNat_mul_eq_zero_iff (a b : Nat) :
    UInt64.ofNat a * UInt64.ofNat b = 0 ↔ 2 ^ 64 ∣ a * b := by
  rw [← UInt64.ofNat_mul, ← UInt64.toNat_inj, UInt64.toNat_ofNat', UInt64.toNat_zero,
    Nat.dvd_iff_mod_eq_zero]

/-- `ULONG_MAX` times a unit is never zero. -/
theorem ulongMax_mul_ne_zero (hunit : 0 < unit) (hlt : unit < 2 ^ 64) :
    UInt64.ofNat (2 ^ 64 - 1) * UInt64.ofNat unit ≠ 0 := by
  rw [Ne, ofNat_mul_eq_zero_iff]
  intro hdvd
  have hcop : Nat.Coprime (2 ^ 64) (2 ^ 64 - 1) := by decide +kernel
  exact absurd (Nat.le_of_dvd hunit (hcop.dvd_of_dvd_mul_left hdvd)) (by omega)

/-- A sign does not decide whether the product wraps around to zero. -/
theorem parseTime_eq_zero_iff (h : Amount (signless spec) n unit) :
    parseTime spec = 0 ↔ n < 2 ^ 64 ∧ 2 ^ 64 ∣ n * unit := by
  obtain ⟨neg, hsign⟩ : ∃ neg, scanSign (spec.dropWhile isspace) = (neg, signless spec) := ⟨_, rfl⟩
  have hparse := parseTime_of_amount hsign h
  by_cases hn : n < 2 ^ 64
  · rw [hparse, and_iff_right hn, ← ofNat_mul_eq_zero_iff]
    cases neg with
    | false =>
      rw [if_neg Bool.false_ne_true, ofNat_clampULong (by omega), ofInt_natCast]
    | true =>
      rw [if_pos rfl, ofNat_clampULong (by omega), UInt64.ofInt_neg, UInt64.neg_mul, neg_eq_zero,
        ofInt_natCast]
  · have hclamp : clampULong (if neg then -(n : Int) else n) = 2 ^ 64 - 1 := by
      rw [clampULong, if_neg]
      split <;> omega
    obtain ⟨digits, suffix, -, -, hunit⟩ := h
    obtain ⟨-, -, hpos, hlt⟩ := suffix_of_timeUnit hunit
    rw [hparse, hclamp]
    exact iff_of_false (ulongMax_mul_ne_zero hpos hlt) fun hand => hn hand.1

/-- Without a sign, the product is that of the numbers modulo `2 ^ 64`. -/
theorem parseTime_toNat (h : Amount spec n unit) (hn : n < 2 ^ 64) :
    (parseTime spec).toNat = n * unit % 2 ^ 64 := by
  have hclamp : UInt64.ofNat (clampULong n).toNat = UInt64.ofNat n := by
    rw [ofNat_clampULong (by omega), ofInt_natCast]
  rw [parseTime_of_amount h.scanSign_eq h, if_neg Bool.false_ne_true, hclamp, ← UInt64.ofNat_mul,
    UInt64.toNat_ofNat']

theorem iotMsToNs_toNat (ms : UInt64) : (iotMsToNs ms).toNat = ms.toNat * 10 ^ 6 % 2 ^ 64 := by
  rw [iotMsToNs, UInt64.toNat_mul]
  rfl

end Frequency

-- ---------------------------------------------------------------------------
-- Starting one event
-- ---------------------------------------------------------------------------

section Start

variable {autoevstart : Bool} {dev : DeviceInfo} {prof prof' q : DeviceProfile}
  {ae ae' : DeviceAutoevent} {effect : StartEffect}

/-- What a round of the loop does. -/
inductive StartCase (autoevstart : Bool) (dev : DeviceInfo) (prof : DeviceProfile)
    (ae : DeviceAutoevent) : StartEffect → DeviceAutoevent → DeviceProfile → Prop where
  /-- The event was started before. -/
  | again {ai : TimedAutoimpl} :
      ae.impl = some ai → StartCase autoevstart dev prof ae (launch autoevstart ai) ae prof
  | noResource {prof' : DeviceProfile} {message : Text} :
      ae.impl = none →
      edgexDeviceprofileFindcommand ae.resource prof true = .ok (none, prof') →
      StartCase autoevstart dev prof ae (.logError message) ae prof'
  | noInterval {prof' : DeviceProfile} {cmd : CmdInfo} {message : Text} :
      ae.impl = none →
      edgexDeviceprofileFindcommand ae.resource prof true = .ok (some cmd, prof') →
      parseTime ae.frequency = 0 →
      StartCase autoevstart dev prof ae (.logError message) ae prof'
  | made {prof' : DeviceProfile} {cmd : CmdInfo} {ai : TimedAutoimpl} :
      ae.impl = none →
      edgexDeviceprofileFindcommand ae.resource prof true = .ok (some cmd, prof') →
      parseTime ae.frequency ≠ 0 →
      ai.interval = parseTime ae.frequency →
      StartCase autoevstart dev prof ae (launch autoevstart ai) { ae with impl := some ai } prof'

theorem startAutoevent_cases
    (h : startAutoevent autoevstart dev prof ae = .ok (effect, ae', prof')) :
    StartCase autoevstart dev prof ae effect ae' prof' := by
  unfold startAutoevent at h
  split at h
  · next ai himpl =>
    cases h
    exact .again himpl
  · next himpl =>
    obtain ⟨⟨impl, r⟩, hnew, h⟩ := Checked.bind_eq_ok.mp h
    obtain ⟨⟨cmd, r'⟩, hfind, hnew⟩ := Checked.bind_eq_ok.mp hnew
    cases cmd with
    | none =>
      cases hnew
      cases h
      exact .noResource himpl hfind
    | some cmd =>
      dsimp only at hnew
      split at hnew
      · next hzero =>
        cases hnew
        cases h
        exact .noInterval himpl hfind hzero
      · next hinterval =>
        cases hnew
        cases h
        exact .made himpl hfind hinterval rfl

/-- A round returns where the table of commands is there or can be built. -/
theorem startAutoevent_returns (autoevstart : Bool) (dev : DeviceInfo) (ae : DeviceAutoevent)
    (hprof : ∃ r, ensureCmdInfo prof = .ok r) :
    ∃ r, startAutoevent autoevstart dev prof ae = .ok r := by
  obtain ⟨r, hr⟩ := hprof
  obtain ⟨cmd, hfind⟩ : ∃ cmd, edgexDeviceprofileFindcommand ae.resource prof true = .ok (cmd, r) :=
    ⟨_, by rw [edgexDeviceprofileFindcommand, hr, Checked.ok_bind]; rfl⟩
  have hnew : ∃ s, newAutoimpl dev prof ae.toAutoEvent = .ok s := by
    rw [newAutoimpl, hfind, Checked.ok_bind]
    cases cmd with
    | none => exact ⟨_, rfl⟩
    | some cmd =>
      by_cases hzero : parseTime ae.frequency = 0
      · exact ⟨_, if_pos hzero⟩
      · exact ⟨_, if_neg hzero⟩
  obtain ⟨⟨impl, s⟩, hnew⟩ := hnew
  unfold startAutoevent
  split
  · exact ⟨_, rfl⟩
  · rw [hnew, Checked.ok_bind]
    cases impl with
    | error message => exact ⟨_, rfl⟩
    | ok ai => exact ⟨_, rfl⟩

/-- An event that was started before has the interval that is read off its frequency. -/
def DeviceAutoevent.Kept (ae : DeviceAutoevent) : Prop :=
  ∀ ai, ae.impl = some ai → ai.interval = parseTime ae.frequency ∧ ai.interval ≠ 0

theorem StartCase.kept (h : StartCase autoevstart dev prof ae effect ae' prof') (hae : ae.Kept) :
    ae'.Kept := by
  cases h with
  | again _ => exact hae
  | noResource _ _ => exact hae
  | noInterval _ _ _ => exact hae
  | made _ _ hinterval hai =>
    intro ai hsome
    cases hsome
    exact ⟨hai, hai ▸ hinterval⟩

theorem StartCase.ensured (h : StartCase autoevstart dev q ae effect ae' prof')
    (hq : Devmap.Ensured prof q) : Devmap.Ensured prof prof' := by
  cases h with
  | again _ => exact hq
  | noResource _ hfind => exact hq.findcommand hfind
  | noInterval _ hfind _ => exact hq.findcommand hfind
  | made _ hfind _ _ => exact hq.findcommand hfind

/-- The event is started with the interval that is read off its frequency, or rejected where that is
zero. -/
def StartEffect.Timed (autoevstart : Bool) (spec : Text) (effect : StartEffect) : Prop :=
  (parseTime spec = 0 ∧ effect.Rejected) ∨
    (parseTime spec ≠ 0 ∧ ∃ ai, ai.interval = parseTime spec ∧ effect = launch autoevstart ai)

/-- The command of the event is found. -/
def DeviceAutoevent.Resolves (prof : DeviceProfile) (ae : DeviceAutoevent) : Prop :=
  ∃ cmd next, edgexDeviceprofileFindcommand ae.resource prof true = .ok (some cmd, next)

theorem StartCase.timed (h : StartCase autoevstart dev q ae effect ae' prof')
    (hq : Devmap.Ensured prof q) (hae : ae.Kept) (hcmd : ae.Resolves prof) :
    effect.Timed autoevstart ae.frequency := by
  cases h with
  | again himpl =>
    obtain ⟨hinterval, hne⟩ := hae _ himpl
    exact .inr ⟨hinterval ▸ hne, _, hinterval, rfl⟩
  | noResource _ hfind =>
    obtain ⟨cmd, next, hcmd⟩ := hcmd
    rw [hq.findcommand_eq, hcmd] at hfind
    cases hfind
  | noInterval _ _ hzero => exact .inl ⟨hzero, _, rfl⟩
  | made _ _ hinterval hai => exact .inr ⟨hinterval, _, hai, rfl⟩

end Start

-- ---------------------------------------------------------------------------
-- Starting all events
-- ---------------------------------------------------------------------------

section Run

variable {autoevstart : Bool} {dev : DeviceInfo} {prof prof' q : DeviceProfile}
  {autos autos' : List DeviceAutoevent} {effects : List StartEffect}

theorem startTimed_cons {ae : DeviceAutoevent}
    (h : edgexDeviceAutoeventStartTimed autoevstart dev q (ae :: autos) =
      .ok (effects, autos', prof')) :
    ∃ effect ae' r effects' autos'', StartCase autoevstart dev q ae effect ae' r ∧
      edgexDeviceAutoeventStartTimed autoevstart dev r autos = .ok (effects', autos'', prof') ∧
      effects = effect :: effects' ∧ autos' = ae' :: autos'' := by
  obtain ⟨⟨effect, ae', r⟩, hround, h⟩ := Checked.bind_eq_ok.mp h
  obtain ⟨⟨effects', autos'', prof''⟩, hrest, h⟩ := Checked.bind_eq_ok.mp h
  cases h
  exact ⟨effect, ae', r, effects', autos'', startAutoevent_cases hround, hrest, rfl, rfl⟩

theorem startTimed_kept
    (h : edgexDeviceAutoeventStartTimed autoevstart dev q autos = .ok (effects, autos', prof'))
    (hautos : ∀ ae ∈ autos, ae.Kept) : ∀ ae ∈ autos', ae.Kept := by
  induction autos generalizing q effects autos' with
  | nil =>
    cases h
    exact List.forall_mem_nil _
  | cons ae autos ih =>
    obtain ⟨effect, ae', r, effects', autos'', hround, hrest, rfl, rfl⟩ := startTimed_cons h
    rw [List.forall_mem_cons] at hautos
    exact List.forall_mem_cons.mpr ⟨hround.kept hautos.1, ih hrest hautos.2⟩

/-- However often the events of a device are started, those with an `impl` keep its interval. -/
theorem Autoevents.kept (h : Autoevents autos) : ∀ ae ∈ autos, ae.Kept := by
  induction h with
  | added autos =>
    intro ae hae ai hai
    obtain ⟨event, -, rfl⟩ := List.mem_map.mp hae
    cases hai
  | started _ hstart ih => exact startTimed_kept hstart ih

/-- All events are started in turn, with a lookup that answers the same each time. -/
theorem startTimed_timed
    (h : edgexDeviceAutoeventStartTimed autoevstart dev q autos = .ok (effects, autos', prof'))
    (hq : Devmap.Ensured prof q) (hautos : ∀ ae ∈ autos, ae.Kept) :
    List.Forall₂ (fun ae effect =>
      ae.Resolves prof → effect.Timed autoevstart ae.frequency) autos effects := by
  induction autos generalizing q effects autos' with
  | nil =>
    cases h
    exact .nil
  | cons ae autos ih =>
    obtain ⟨effect, ae', r, effects', autos'', hround, hrest, rfl, rfl⟩ := startTimed_cons h
    rw [List.forall_mem_cons] at hautos
    exact .cons (hround.timed hq hautos.1) (ih hrest (hround.ensured hq) hautos.2)

/-- The loop returns where the table of commands is there or can be built. -/
theorem startTimed_returns (hprof : ∃ r, ensureCmdInfo prof = .ok r) (hq : Devmap.Ensured prof q)
    (autos : List DeviceAutoevent) :
    ∃ r, edgexDeviceAutoeventStartTimed autoevstart dev q autos = .ok r := by
  induction autos generalizing q with
  | nil => exact ⟨_, rfl⟩
  | cons ae autos ih =>
    rw [← hq.ensureCmdInfo_eq] at hprof
    obtain ⟨⟨effect, ae', r⟩, hround⟩ := startAutoevent_returns autoevstart dev ae hprof
    have hr := (startAutoevent_cases hround).ensured hq
    rw [hq.ensureCmdInfo_eq] at hprof
    obtain ⟨rest, hrest⟩ := ih hr
    rw [edgexDeviceAutoeventStartTimed, hround, Checked.ok_bind]
    dsimp only
    rw [hrest, Checked.ok_bind]
    exact ⟨_, rfl⟩

/-- The events of a device that was just added leave its profile as `edgexDeviceAutoeventStart`
says. -/
theorem startTimed_profile {events : List AutoEvent}
    (h : edgexDeviceAutoeventStartTimed autoevstart dev q (events.map .fresh) =
      .ok (effects, autos', prof')) :
    edgexDeviceAutoeventStart q events = .ok prof' := by
  induction events generalizing q effects autos' with
  | nil =>
    cases h
    rfl
  | cons ae events ih =>
    obtain ⟨effect, ae', r, effects', autos'', hround, hrest, rfl, rfl⟩ := startTimed_cons h
    have hfind : ∃ cmd, edgexDeviceprofileFindcommand ae.resource q true = .ok (cmd, r) := by
      cases hround with
      | again himpl => cases himpl
      | noResource _ hfind => exact ⟨_, hfind⟩
      | noInterval _ hfind _ => exact ⟨_, hfind⟩
      | made _ hfind _ _ => exact ⟨_, hfind⟩
    obtain ⟨cmd, hfind⟩ := hfind
    rw [edgexDeviceAutoeventStart, hfind, Checked.ok_bind]
    exact ih hrest

end Run

-- ---------------------------------------------------------------------------
-- Exact intervals
-- ---------------------------------------------------------------------------

section Exact

variable {autoevstart : Bool} {spec : Text} {effect : StartEffect}

theorem launch_not_rejected (autoevstart : Bool) (ai : TimedAutoimpl) :
    ¬ (launch autoevstart ai).Rejected := by
  rintro ⟨message, h⟩
  cases autoevstart with
  | false => cases h
  | true => cases h

/-- What is handed on is the interval, in the unit that is asked for, where that fits. -/
theorem launch_every_iff {ai : TimedAutoimpl} {ms : Nat} :
    (launch autoevstart ai).Every ms ↔
      ai.interval.toNat = ms ∧ ms * perMs autoevstart < 2 ^ 64 := by
  cases autoevstart with
  | true =>
    have hlt := ai.interval.toNat_lt
    have hone : perMs true = 1 := rfl
    rw [hone, Nat.mul_one]
    constructor
    · intro h
      exact ⟨h, h ▸ hlt⟩
    · exact And.left
  | false =>
    have hscale : perMs false = 10 ^ 6 := rfl
    rw [hscale]
    change ai.interval.toNat = ms ∧ (iotMsToNs ai.interval).toNat = ms * 10 ^ 6 ↔ _
    rw [iotMsToNs_toNat]
    constructor
    · rintro ⟨rfl, hperiod⟩
      exact ⟨rfl, by omega⟩
    · rintro ⟨rfl, hfits⟩
      exact ⟨rfl, Nat.mod_eq_of_lt hfits⟩

/-- An amount of time that fits in the unit that is asked for fits in milliseconds, and so does
its number. -/
theorem Amount.bounds {n unit : Nat} (h : Amount spec n unit) (hn : n ≠ 0)
    (hfits : n * unit * perMs autoevstart < 2 ^ 64) :
    n * unit < 2 ^ 64 ∧ n < 2 ^ 64 ∧ 0 < n * unit := by
  obtain ⟨digits, suffix, -, -, hunit⟩ := h
  obtain ⟨-, -, hpos, -⟩ := suffix_of_timeUnit hunit
  have hperMs : 0 < perMs autoevstart := by cases autoevstart <;> decide
  have hms : n * unit < 2 ^ 64 := lt_of_le_of_lt (Nat.le_mul_of_pos_right _ hperMs) hfits
  exact ⟨hms, lt_of_le_of_lt (Nat.le_mul_of_pos_right n hpos) hms,
    Nat.mul_pos (Nat.pos_of_ne_zero hn) hpos⟩

theorem StartEffect.Timed.rejected_iff (h : effect.Timed autoevstart spec) :
    effect.Rejected ↔ parseTime spec = 0 := by
  rcases h with ⟨hzero, hrejected⟩ | ⟨hne, ai, -, rfl⟩
  · exact iff_of_true hrejected hzero
  · exact iff_of_false (launch_not_rejected autoevstart ai) hne

theorem StartEffect.Timed.every_iff (h : effect.Timed autoevstart spec) {ms : Nat} :
    effect.Every ms ↔
      parseTime spec ≠ 0 ∧ (parseTime spec).toNat = ms ∧ ms * perMs autoevstart < 2 ^ 64 := by
  rcases h with ⟨hzero, message, rfl⟩ | ⟨hne, ai, hai, rfl⟩
  · exact iff_of_false id fun hand => hand.1 hzero
  · rw [launch_every_iff, hai, and_iff_right hne]

/-- What is exact does not wrap around, and has nothing in front of its digits. -/
theorem StartEffect.Timed.unwrapped (h : effect.Timed autoevstart spec)
    (hexact : ExactInterval autoevstart spec effect) : Unwrapped autoevstart spec := by
  intro n unit hamount
  by_cases hzero : parseTime spec = 0
  · exact .inl ((parseTime_eq_zero_iff hamount).mp hzero)
  · -- the event is started: its text must say so, with nothing in front
    have hstarted : ¬ effect.Rejected := fun hrejected => hzero (h.rejected_iff.mp hrejected)
    have hplain : ∃ n unit, Amount spec n unit := by
      by_contra hnone
      push Not at hnone
      exact hstarted (hexact.other fun n unit hn => absurd hn (hnone n unit))
    obtain ⟨_, _, hplain⟩ := hplain
    have hsignless := hplain.signless_eq
    rw [hsignless] at hamount
    refine .inr ⟨hsignless, ?_⟩
    by_contra hlarge
    have hn : n ≠ 0 := by
      rintro rfl
      exact hlarge (by omega)
    exact hstarted (hexact.tooLarge n unit hamount hn (by omega))

/-- What does not wrap around, with nothing in front of the digits, is exact. -/
theorem StartEffect.Timed.exact (h : effect.Timed autoevstart spec)
    (hunwrapped : Unwrapped autoevstart spec) : ExactInterval autoevstart spec effect where
  fits n unit hamount hn hfits := by
    obtain ⟨hms, hn', hpos⟩ := hamount.bounds hn hfits
    have hparse := parseTime_toNat hamount hn'
    rw [Nat.mod_eq_of_lt hms] at hparse
    refine h.every_iff.mpr ⟨?_, hparse, hfits⟩
    intro hzero
    rw [hzero, UInt64.toNat_zero] at hparse
    omega
  tooLarge n unit hamount hn hlarge := by
    rw [h.rejected_iff]
    have hsignless : Amount (signless spec) n unit := by rwa [hamount.signless_eq]
    rcases hunwrapped n unit hsignless with hwraps | ⟨-, hfits⟩
    · exact (parseTime_eq_zero_iff hsignless).mpr hwraps
    · omega
  other hnone := by
    rw [h.rejected_iff]
    by_contra hne
    obtain ⟨n, unit, hamount⟩ := amount_of_parseTime hne
    rcases hunwrapped n unit hamount with hwraps | ⟨hplain, -⟩
    · exact hne ((parseTime_eq_zero_iff hamount).mpr hwraps)
    · obtain rfl := hnone n unit (by rwa [hplain] at hamount)
      exact hne ((parseTime_eq_zero_iff hamount).mpr ⟨by decide, by simp⟩)

end Exact

/-- Whichever events of a device are started, and however often: where its command is found, an
event fires at exactly the interval of its text, or is rejected as it should be, if and only if no
product wraps around and no white space or sign is skipped. -/
theorem autoevents_exact_iff {autos : List DeviceAutoevent} (hautos : Autoevents autos)
    (autoevstart : Bool) (dev : DeviceInfo) (prof : DeviceProfile) {i : Nat} {ae : DeviceAutoevent}
    (hae : autos[i]? = some ae) (hcmd : ae.Resolves prof) :
    ∃ effects autos' prof' effect,
      edgexDeviceAutoeventStartTimed autoevstart dev prof autos = .ok (effects, autos', prof') ∧
      effects[i]? = some effect ∧
      (ExactInterval autoevstart ae.frequency effect ↔ Unwrapped autoevstart ae.frequency) := by
  have hprof : ∃ r, ensureCmdInfo prof = .ok r := by
    obtain ⟨cmd, next, hcmd⟩ := hcmd
    obtain ⟨r, hr, -⟩ := Checked.bind_eq_ok.mp hcmd
    exact ⟨r, hr⟩
  obtain ⟨⟨effects, autos', prof'⟩, hstart⟩ :
      ∃ r, edgexDeviceAutoeventStartTimed autoevstart dev prof autos = .ok r :=
    startTimed_returns hprof (.inl rfl) autos
  have htimed := startTimed_timed hstart (.inl rfl) hautos.kept
  obtain ⟨hi, rfl⟩ := List.getElem?_eq_some_iff.mp hae
  have hi' : i < effects.length := htimed.length_eq ▸ hi
  exact ⟨effects, autos', prof', effects[i], hstart, List.getElem?_eq_getElem hi',
    ⟨(htimed.get hi hi' hcmd).unwrapped, (htimed.get hi hi' hcmd).exact⟩⟩

/-- A plug that is asked for its power as often as the text says. -/
def plugEvents (frequency : Text) : List DeviceAutoevent :=
  [.fresh ⟨lit "Power", frequency, false⟩]

theorem plugEvents_resolve (frequency : Text) :
    (DeviceAutoevent.fresh ⟨lit "Power", frequency, false⟩).Resolves plugProfile :=
  ⟨_, _, rfl⟩

theorem autoevents_exact_second :
    ∃ effects autos' prof' effect,
      edgexDeviceAutoeventStartTimed false (Devmap.plug (lit "1") (lit "Plug")).toDeviceInfo
        plugProfile (plugEvents (lit "1s")) = .ok (effects, autos', prof') ∧
      effects[0]? = some effect ∧
      (ExactInterval false (lit "1s") effect ↔ Unwrapped false (lit "1s")) :=
  autoevents_exact_iff (.added [⟨lit "Power", lit "1s", false⟩]) false _ plugProfile rfl
    (plugEvents_resolve _)

/-- The milliseconds of so many seconds wrap around to 384. -/
theorem autoevents_not_exact :
    ∃ ai autos' prof',
      edgexDeviceAutoeventStartTimed false (Devmap.plug (lit "1") (lit "Plug")).toDeviceInfo
        plugProfile (plugEvents (lit "18446744073709552s")) =
        .ok ([.schedule ai 384000000], autos', prof') ∧
      ¬ ExactInterval false (lit "18446744073709552s") (.schedule ai 384000000) := by
  have hresolves := plugEvents_resolve (lit "18446744073709552s")
  have hparse : parseTime (lit "18446744073709552s") = 384 := by decide +kernel
  have hamount : Amount (lit "18446744073709552s") 18446744073709552 1000 :=
    ⟨lit "18446744073709552", lit "s", rfl, by decide +kernel, by decide⟩
  obtain ⟨⟨effects, autos', prof'⟩, hstart⟩ :
      ∃ r, edgexDeviceAutoeventStartTimed false (Devmap.plug (lit "1") (lit "Plug")).toDeviceInfo
        plugProfile (plugEvents (lit "18446744073709552s")) = .ok r :=
    startTimed_returns ⟨_, rfl⟩ (.inl rfl) _
  have hkept := (Autoevents.added [⟨lit "Power", lit "18446744073709552s", false⟩]).kept
  cases startTimed_timed hstart (.inl rfl) hkept with
  | cons htimed hrest =>
    cases hrest
    rcases htimed hresolves with ⟨hzero, -⟩ | ⟨-, ai, hai, rfl⟩
    · exact absurd (hparse.symm.trans hzero) (by decide)
    · have hlaunch : launch false ai = .schedule ai 384000000 := by
        have hinterval : ai.interval = 384 := hai.trans hparse
        rw [launch, if_neg Bool.false_ne_true, hinterval]
        rfl
      rw [hlaunch] at hstart
      refine ⟨ai, autos', prof', hstart, fun hexact => ?_⟩
      obtain ⟨message, hrejected⟩ :=
        hexact.tooLarge 18446744073709552 1000 hamount (by decide) (by decide)
      cases hrejected

end Zigbee
