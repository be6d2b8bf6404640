-- SUMMARY: Running a command on a device: the checks before the driver is called, and what it is called with (device.c).
import ZigbeeService.Rest.Write
import ZigbeeService.Sdk.Event

/-!
# Running a command

`runOne`, `edgex_device_runget` and `edgex_device_runput`. The driver is a parameter. What a call
does to the world outside it is recorded in order, also when it does not return.
-/

namespace Zigbee

open CLib

/-! ## The functions of device.c -/

def MHD_HTTP_OK : Nat := 200
def MHD_HTTP_BAD_REQUEST : Nat := 400
def MHD_HTTP_METHOD_NOT_ALLOWED : Nat := 405
def MHD_HTTP_LOCKED : Nat := 423
def MHD_HTTP_INTERNAL_SERVER_ERROR : Nat := 500

/-- The part of `svc->config.device` that a command depends on. -/
structure DeviceConfig where
  datatransform : Bool
  maxcmdops : UInt32

/-- `edgex_device_callbacks`: whether the driver succeeds, and the readings it leaves in the array it
is given. -/
structure UserFns where
  gethandler : Text → List Protocol → (nreadings : Nat) → List DeviceCommandRequest →
    Vector CommandResult nreadings → Bool × Vector CommandResult nreadings
  puthandler : Text → List Protocol → (nvalues : Nat) → List DeviceCommandRequest →
    List CommandResult → Bool

/-- What `runOne` does outside the service. -/
inductive Effect where
  | gethandler (devname : Text) (protocols : List Protocol) (nreadings : Nat)
      (requests : List DeviceCommandRequest)
  | puthandler (devname : Text) (protocols : List Protocol) (nvalues : Nat)
      (requests : List DeviceCommandRequest) (values : List CommandResult)
  /-- `edgex_data_client_add_event`. -/
  | addEvent (eventval : EventCooked)
  /-- `edgex_metadata_client_set_device_opstate`. -/
  | setDeviceOpstate (deviceid : Text) (opstate : OperatingState)

/-- A call of the driver. -/
def Effect.isDriver : Effect → Bool
  | .gethandler .. | .puthandler .. => true
  | .addEvent _ | .setDeviceOpstate .. => false

/-- A run: what it did, and the status and the reply it returned. -/
structure Run where
  effects : List Effect
  outcome : Defined (Nat × Option EventCooked)

/-- The calls of the driver in a run. -/
def Run.driverCalls (run : Run) : List Effect := run.effects.filter Effect.isDriver

/-- A run that only returns a status. -/
def Run.refuse (retcode : Nat) : Run := ⟨[], .ok (retcode, none)⟩

/-- `commandinfo->reqs`. -/
def CmdInfo.requests (commandinfo : CmdInfo) : List DeviceCommandRequest :=
  commandinfo.reqs.map CmdRequest.toDeviceCommandRequest

section Functions

variable (ft : FloatText) {L : Type} (ld : LongDouble L) (cb : Libcbor) (parson : Parson)
  (userfns : UserFns)
  (svc : DeviceConfig) (dev : DeviceInfo)

/-- One round of the loop of `edgex_device_runput`: the status, and the result as it leaves it. -/
def runputRound (jobj : Option Members) (req : CmdRequest) (result : CommandResult) :
    Defined (Nat × CommandResult) :=
  if !req.pval.writable then return (MHD_HTTP_METHOD_NOT_ALLOWED, result)
  else
    match jsonObjectGetString jobj req.resname with
    | none => return (MHD_HTTP_BAD_REQUEST, result)
    | some value =>
      match populateValue ft { result with type := req.pval.type } value with
      | (false, result) => return (MHD_HTTP_BAD_REQUEST, result)
      | (true, result) =>
        if svc.datatransform then do
          let (success, result) ← edgexTransformIncoming ld result req.pval req.map
          return (if success then MHD_HTTP_OK else MHD_HTTP_BAD_REQUEST, result)
        else return (MHD_HTTP_OK, result)

/-- The loop from index `i` on: the status, and the results as it leaves them. -/
def runputLoop (jobj : Option Members) :
    List CmdRequest → Nat → List CommandResult → Defined (Nat × List CommandResult)
  | [], _, results => return (MHD_HTTP_OK, results)
  | req :: reqs, i, results =>
    match results[i]? with
    | none => .error (.memory .outOfBounds)
    | some result => do
      let (retcode, result) ← runputRound ft ld svc jobj req result
      let results := results.set i result
      if retcode = MHD_HTTP_OK then runputLoop jobj reqs (i + 1) results
      else return (retcode, results)

/-- `edgex_device_runput`. -/
def edgexDeviceRunput (commandinfo : CmdInfo) (data : Text) : Run :=
  match parson.parse data with
  | none => .refuse MHD_HTTP_BAD_REQUEST
  | some jval =>
    let results := List.replicate commandinfo.nreqs CommandResult.zero
    match runputLoop ft ld svc (jsonValueGetObject (some jval)) commandinfo.reqs 0 results with
    | .error e => ⟨[], .error e⟩
    | .ok (retcode, results) =>
      if retcode = MHD_HTTP_OK then
        let nreqs := commandinfo.nreqs
        let reqs := commandinfo.requests
        let success := userfns.puthandler dev.name dev.protocols nreqs reqs results
        ⟨[.puthandler dev.name dev.protocols nreqs reqs results],
          .ok (if success then MHD_HTTP_OK else MHD_HTTP_INTERNAL_SERVER_ERROR, none)⟩
      else .refuse retcode

/-- `edgex_device_runget`. -/
def edgexDeviceRunget (timenow : UInt64) (commandinfo : CmdInfo) : Run :=
  if commandinfo.reqs.any fun req => !req.pval.readable then .refuse MHD_HTTP_METHOD_NOT_ALLOWED
  else
    let nreqs := commandinfo.nreqs
    let reqs := commandinfo.requests
    let results := Vector.replicate nreqs CommandResult.zero
    let call := Effect.gethandler dev.name dev.protocols nreqs reqs
    match userfns.gethandler dev.name dev.protocols nreqs reqs results with
    | (false, _) => ⟨[call], .ok (MHD_HTTP_INTERNAL_SERVER_ERROR, none)⟩
    | (true, results) =>
      match edgexDataProcessEvent ft ld cb timenow dev.name commandinfo results.toList
          svc.datatransform with
      | .error e => ⟨[call], .error e⟩
      | .ok (some event, _) => ⟨[call, .addEvent event], .ok (MHD_HTTP_OK, some event)⟩
      | .ok (none, _) =>
        ⟨[call, .setDeviceOpstate dev.id .disabled], .ok (MHD_HTTP_INTERNAL_SERVER_ERROR, none)⟩

/-- `runOne`. -/
def runOne (timenow : UInt64) (command : CmdInfo) (upload_data : Text) (upload_data_size : Nat) :
    Run :=
  if dev.adminState = .locked then .refuse MHD_HTTP_LOCKED
  else if dev.operatingState = .disabled then .refuse MHD_HTTP_LOCKED
  else if command.nreqs > svc.maxcmdops.toNat then .refuse MHD_HTTP_INTERNAL_SERVER_ERROR
  else if command.isget then edgexDeviceRunget ft ld cb userfns svc dev timenow command
  else if upload_data_size = 0 then .refuse MHD_HTTP_BAD_REQUEST
  else edgexDeviceRunput ft ld parson userfns svc dev command upload_data

end Functions

/-! ## What the driver may be called with -/

section Spec

variable (ft : FloatText) {L : Type} (ld : LongDouble L) (parson : Parson) (svc : DeviceConfig)
  (dev : DeviceInfo)

/-- The body supplies a value for a request, and this is the value transformed. -/
def Supplied (jval : Json) (req : CmdRequest) (result : CommandResult) : Prop :=
  req.pval.writable = true ∧ ∃ value parsed,
    jsonObjectGetString (jsonValueGetObject (some jval)) req.resname = some value ∧
      populateValue ft { CommandResult.zero with type := req.pval.type } value = (true, parsed) ∧
        if svc.datatransform then
          edgexTransformIncoming ld parsed req.pval req.map = .ok (true, result)
        else result = parsed

/-- The device takes commands of this size. -/
structure TakesCommand (command : CmdInfo) : Prop where
  unlocked : dev.adminState = .unlocked
  enabled : dev.operatingState = .enabled
  size : command.nreqs ≤ svc.maxcmdops.toNat

/-- The call of the driver that a request entitles to. -/
inductive Entitled (command : CmdInfo) (upload_data : Text) (upload_data_size : Nat) :
    Effect → Prop where
  | get :
      TakesCommand svc dev command → command.isget = true →
      (∀ req ∈ command.reqs, req.pval.readable = true) →
      Entitled command upload_data upload_data_size
        (.gethandler dev.name dev.protocols command.nreqs command.requests)
  | put {jval : Json} {results : List CommandResult} :
      TakesCommand svc dev command → command.isget = false →
      upload_data_size ≠ 0 → parson.parse upload_data = some jval →
      List.Forall₂ (Supplied ft ld svc jval) command.reqs results →
      Entitled command upload_data upload_data_size
        (.puthandler dev.name dev.protocols command.nreqs command.requests results)

end Spec

/-! ## Runs -/

section Put

variable {ft : FloatText} {L : Type} {ld : LongDouble L} {svc : DeviceConfig}

/-- A round succeeds exactly when the body supplies the value. -/
theorem runputRound_ok_iff {jval : Json} {req : CmdRequest} {result : CommandResult} :
    runputRound ft ld svc (jsonValueGetObject (some jval)) req CommandResult.zero =
        .ok (MHD_HTTP_OK, result) ↔
      Supplied ft ld svc jval req result := by
  unfold runputRound Supplied
  -- one case for each way out of the round
  by_cases hwritable : req.pval.writable = true
  case neg => simp [hwritable, MHD_HTTP_METHOD_NOT_ALLOWED, MHD_HTTP_OK]
  cases hvalue : jsonObjectGetString (jsonValueGetObject (some jval)) req.resname with
  | none => simp [hwritable, MHD_HTTP_BAD_REQUEST, MHD_HTTP_OK]
  | some value =>
    rcases hparse : populateValue ft { CommandResult.zero with type := req.pval.type } value
      with ⟨accepted, parsed⟩
    cases accepted with
    | false => simp [hwritable, hparse, MHD_HTTP_BAD_REQUEST, MHD_HTTP_OK]
    | true =>
      by_cases htransform : svc.datatransform = true
      case neg => simp [hwritable, hparse, htransform, eq_comm]
      cases hincoming : edgexTransformIncoming ld parsed req.pval req.map with
      | error e => simp [hwritable, hparse, htransform, hincoming]
      | ok out =>
        obtain ⟨success, transformed⟩ := out
        cases success with
        | false =>
          simp [hwritable, hparse, htransform, hincoming, MHD_HTTP_BAD_REQUEST, MHD_HTTP_OK]
        | true => simp [hwritable, hparse, htransform, hincoming]

/-- The loop goes through exactly when every round does. The results before index `i` are done, the
others are as `calloc` left them. -/
theorem runputLoop_ok_iff {jobj : Option Members} {reqs : List CmdRequest}
    (done : List CommandResult) {results : List CommandResult} :
    runputLoop ft ld svc jobj reqs done.length
        (done ++ List.replicate reqs.length CommandResult.zero) = .ok (MHD_HTTP_OK, results) ↔
      ∃ new, results = done ++ new ∧ List.Forall₂
        (fun req result => runputRound ft ld svc jobj req CommandResult.zero =
          .ok (MHD_HTTP_OK, result)) reqs new := by
  induction reqs generalizing done with
  | nil =>
    rw [runputLoop]
    constructor
    · rintro h
      cases h
      exact ⟨[], rfl, .nil⟩
    · rintro ⟨new, rfl, hnew⟩
      cases hnew
      rfl
  | cons req reqs ih =>
    -- the result at the index of the round is the first that is still as allocated
    have hget : (done ++ List.replicate (req :: reqs).length CommandResult.zero)[done.length]? =
        some CommandResult.zero := by
      rw [List.getElem?_append_right le_rfl, Nat.sub_self]
      rfl
    have hset (result : CommandResult) :
        (done ++ List.replicate (req :: reqs).length CommandResult.zero).set done.length result =
          (done ++ [result]) ++ List.replicate reqs.length CommandResult.zero := by
      rw [List.set_append_right _ _ le_rfl, Nat.sub_self, List.append_assoc]
      rfl
    have hlen (result : CommandResult) : done.length + 1 = (done ++ [result]).length := by
      rw [List.length_append, List.length_singleton]
    rw [runputLoop, hget]
    dsimp only
    rw [Defined.bind_eq_ok]
    constructor
    · rintro ⟨⟨retcode, result⟩, hround, h⟩
      dsimp only at h
      split at h
      case isFalse hbad =>
        cases h
        exact absurd rfl hbad
      case isTrue hgood =>
        subst hgood
        rw [hset, hlen result] at h
        obtain ⟨new, rfl, hnew⟩ := (ih (done ++ [result])).mp h
        exact ⟨result :: new, by simp, .cons hround hnew⟩
    · rintro ⟨new, rfl, hnew⟩
      cases hnew with
      | cons hround hrest =>
        rename_i result rest
        refine ⟨(MHD_HTTP_OK, result), hround, ?_⟩
        dsimp only
        rw [if_pos rfl, hset, hlen result]
        exact (ih (done ++ [result])).mpr ⟨rest, by simp, hrest⟩

end Put

section Runs

variable (ft : FloatText) {L : Type} (ld : LongDouble L) (cb : Libcbor) (parson : Parson)
  (userfns : UserFns)
  (svc : DeviceConfig) (dev : DeviceInfo)

/-- A run that does not call the driver and does not succeed. -/
structure Run.Refused (run : Run) : Prop where
  quiet : run.driverCalls = []
  status : ∀ status reply, run.outcome = .ok (status, reply) → status ≠ MHD_HTTP_OK

theorem refused_refuse {retcode : Nat} (h : retcode ≠ MHD_HTTP_OK) :
    (Run.refuse retcode).Refused := by
  refine ⟨rfl, fun status reply hout => ?_⟩
  cases hout
  exact h

/-- The loop goes through exactly when the body supplies every value. -/
theorem runputLoop_eq_ok (commandinfo : CmdInfo) (jval : Json) (results : List CommandResult) :
    runputLoop ft ld svc (jsonValueGetObject (some jval)) commandinfo.reqs 0
        (List.replicate commandinfo.nreqs CommandResult.zero) = .ok (MHD_HTTP_OK, results) ↔
      List.Forall₂ (Supplied ft ld svc jval) commandinfo.reqs results := by
  refine (runputLoop_ok_iff []).trans ?_
  simp only [List.nil_append, exists_eq_left', runputRound_ok_iff]

/-- A PUT calls the driver with all values of the body, or not at all. -/
theorem edgexDeviceRunput_cases (commandinfo : CmdInfo) (data : Text) :
    (∃ jval results, parson.parse data = some jval ∧
        List.Forall₂ (Supplied ft ld svc jval) commandinfo.reqs results ∧
        (edgexDeviceRunput ft ld parson userfns svc dev commandinfo data).driverCalls =
          [.puthandler dev.name dev.protocols commandinfo.nreqs commandinfo.requests results]) ∨
      (∀ jval results, parson.parse data = some jval →
          ¬ List.Forall₂ (Supplied ft ld svc jval) commandinfo.reqs results) ∧
        (edgexDeviceRunput ft ld parson userfns svc dev commandinfo data).Refused := by
  unfold edgexDeviceRunput
  cases hparse : parson.parse data with
  | none => exact .inr ⟨nofun, refused_refuse (by decide)⟩
  | some jval =>
    have hloop := runputLoop_eq_ok ft ld svc commandinfo jval
    dsimp only
    generalize runputLoop ft ld svc (jsonValueGetObject (some jval)) commandinfo.reqs 0
      (List.replicate commandinfo.nreqs CommandResult.zero) = out at hloop
    -- what the loop returned decides whether some list of results is supplied
    have hnone (h : ∀ results, out ≠ .ok (MHD_HTTP_OK, results)) :
        ∀ jval' results, some jval = some jval' →
          ¬ List.Forall₂ (Supplied ft ld svc jval') commandinfo.reqs results := by
      intro jval' results hjval hall
      cases hjval
      exact h results ((hloop results).mpr hall)
    cases out with
    | error e => exact .inr ⟨hnone nofun, rfl, nofun⟩
    | ok out =>
      obtain ⟨retcode, results⟩ := out
      by_cases hgood : retcode = MHD_HTTP_OK
      · subst hgood
        exact .inl ⟨jval, results, rfl, (hloop results).mp rfl, rfl⟩
      · refine .inr ⟨hnone fun results' hok => ?_, ?_⟩
        · cases hok
          exact hgood rfl
        · dsimp only
          rw [if_neg hgood]
          exact refused_refuse hgood

/-- A GET calls the driver once, unless some resource is not readable. -/
theorem edgexDeviceRunget_cases (timenow : UInt64) (commandinfo : CmdInfo) :
    (∀ req ∈ commandinfo.reqs, req.pval.readable = true) ∧
        (edgexDeviceRunget ft ld cb userfns svc dev timenow commandinfo).driverCalls =
          [.gethandler dev.name dev.protocols commandinfo.nreqs commandinfo.requests] ∨
      (¬ ∀ req ∈ commandinfo.reqs, req.pval.readable = true) ∧
        (edgexDeviceRunget ft ld cb userfns svc dev timenow commandinfo).Refused := by
  unfold edgexDeviceRunget
  by_cases hany : (commandinfo.reqs.any fun req => !req.pval.readable) = true
  · rw [if_pos hany]
    refine .inr ⟨?_, refused_refuse (by decide)⟩
    simpa using hany
  · rw [if_neg hany]
    refine .inl ⟨by simpa using hany, ?_⟩
    dsimp only
    split
    · rfl
    · split <;> rfl

/-- A locked or disabled device, or too large a command. -/
theorem runOne_of_not_takes (timenow : UInt64) {command : CmdInfo}
    (h : ¬ TakesCommand svc dev command) (upload_data : Text) (upload_data_size : Nat) :
    (runOne ft ld cb parson userfns svc dev timenow command upload_data
      upload_data_size).Refused := by
  unfold runOne
  by_cases hadmin : dev.adminState = .locked
  · rw [if_pos hadmin]
    exact refused_refuse (by decide)
  rw [if_neg hadmin]
  by_cases hop : dev.operatingState = .disabled
  · rw [if_pos hop]
    exact refused_refuse (by decide)
  rw [if_neg hop]
  by_cases hmax : command.nreqs > svc.maxcmdops.toNat
  · rw [if_pos hmax]
    exact refused_refuse (by decide)
  · refine absurd ⟨?_, ?_, Nat.le_of_not_gt hmax⟩ h
    · cases hstate : dev.adminState with
      | locked => exact absurd hstate hadmin
      | unlocked => rfl
    · cases hstate : dev.operatingState with
      | disabled => exact absurd hstate hop
      | enabled => rfl

theorem runOne_of_takes (timenow : UInt64) {command : CmdInfo}
    (h : TakesCommand svc dev command) (upload_data : Text) (upload_data_size : Nat) :
    runOne ft ld cb parson userfns svc dev timenow command upload_data upload_data_size =
      if command.isget then edgexDeviceRunget ft ld cb userfns svc dev timenow command
      else if upload_data_size = 0 then .refuse MHD_HTTP_BAD_REQUEST
      else edgexDeviceRunput ft ld parson userfns svc dev command upload_data := by
  have hadmin : dev.adminState ≠ .locked := by simp [h.unlocked]
  have hop : dev.operatingState ≠ .disabled := by simp [h.enabled]
  rw [runOne, if_neg hadmin, if_neg hop, if_neg (Nat.not_lt_of_le h.size)]

/-- The driver is called with the one call a request entitles to. Where it entitles to none, the
driver is not called, and the status is not that of success. -/
theorem runOne_entitled (timenow : UInt64) (command : CmdInfo) (upload_data : Text)
    (upload_data_size : Nat) :
    let run := runOne ft ld cb parson userfns svc dev timenow command upload_data upload_data_size
    (∃ call, Entitled ft ld parson svc dev command upload_data upload_data_size call ∧
        run.driverCalls = [call]) ∨
      (∀ call, ¬ Entitled ft ld parson svc dev command upload_data upload_data_size call) ∧
        run.driverCalls = [] ∧
        ∀ status reply, run.outcome = .ok (status, reply) → status ≠ 200 := by
  intro run
  by_cases htake : TakesCommand svc dev command
  case neg =>
    have hrun := runOne_of_not_takes ft ld cb parson userfns svc dev timenow htake upload_data
      upload_data_size
    refine .inr ⟨fun call h => htake ?_, hrun.quiet, hrun.status⟩
    cases h with
    | get htake _ _ => exact htake
    | put htake _ _ _ _ => exact htake
  -- behind the gates the command goes one of two ways
  have hrun : run = _ := runOne_of_takes ft ld cb parson userfns svc dev timenow htake upload_data
    upload_data_size
  rw [hrun]
  by_cases hget : command.isget = true
  · rw [if_pos hget]
    obtain ⟨hread, hcall⟩ | ⟨hread, hrefused⟩ :=
      edgexDeviceRunget_cases ft ld cb userfns svc dev timenow command
    · exact .inl ⟨_, .get htake hget hread, hcall⟩
    · refine .inr ⟨fun call h => ?_, hrefused.quiet, hrefused.status⟩
      cases h with
      | get _ _ hall => exact hread hall
      | put _ hput _ _ _ => exact absurd hget (by simp [hput])
  · rw [if_neg hget]
    by_cases hsize : upload_data_size = 0
    · rw [if_pos hsize]
      have hrefused : (Run.refuse MHD_HTTP_BAD_REQUEST).Refused := refused_refuse (by decide)
      refine .inr ⟨fun call h => ?_, hrefused.quiet, hrefused.status⟩
      cases h with
      | get _ hget' _ => exact hget hget'
      | put _ _ hbody _ _ => exact hbody hsize
    · rw [if_neg hsize]
      obtain ⟨jval, results, hparse, hall, hcall⟩ | ⟨hnone, hrefused⟩ :=
        edgexDeviceRunput_cases ft ld parson userfns svc dev command upload_data
      · exact .inl ⟨_, .put htake (by simpa using hget) hsize hparse hall, hcall⟩
      · refine .inr ⟨fun call h => ?_, hrefused.quiet, hrefused.status⟩
        cases h with
        | get _ hget' _ => exact hget hget'
        | put _ _ _ hparse hall => exact hnone _ _ hparse hall

end Runs

end Zigbee
