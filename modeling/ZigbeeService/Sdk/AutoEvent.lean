-- SUMMARY: Automatic events: what a firing reads, compares, posts and keeps for the next one (autoevent.c).
import ZigbeeService.Lib.Machine
import ZigbeeService.Sdk.Results
import ZigbeeService.Sdk.RunOne

/-!
# Automatic events

`ae_runner`. The device map, the driver and core-data are inputs of a firing. What a firing does is
recorded in order, also when it does not return.
-/

namespace Zigbee

open CLib

-- ---------------------------------------------------------------------------
-- The functions
-- ---------------------------------------------------------------------------

/-- `edgex_autoimpl`, as far as a firing looks at it. Its count of references does not wrap. -/
structure EdgexAutoimpl where
  last : Option (List CommandResult)
  resource : CmdInfo
  device : Text
  refs : Nat
  onChange : Bool

/-- What `edgex_device_autoevent_start` allocates. -/
def EdgexAutoimpl.start (resource : CmdInfo) (device : Text) (onChange : Bool) : EdgexAutoimpl where
  last := none
  resource := resource
  device := device
  refs := 1
  onChange := onChange

/-- `edgex_autoimpl_release`: the last reference frees it. -/
def EdgexAutoimpl.release (ai : EdgexAutoimpl) : Option EdgexAutoimpl :=
  if ai.refs = 1 then none else some { ai with refs := ai.refs - 1 }

/-- What a firing meets. -/
structure Firing where
  /-- What `edgex_devmap_device_byname` returns. -/
  dev : Option DeviceInfo
  userfns : UserFns
  svc : DeviceConfig
  timenow : UInt64
  /-- `err.code == 0` after `edgex_data_client_add_event`. -/
  accepted : Bool

/-- What a firing does. -/
inductive AeEffect where
  | gethandler (devname : Text) (protocols : List Protocol) (nreadings : Nat)
      (requests : List DeviceCommandRequest)
  /-- `edgex_data_process_event` is called with these values. -/
  | processEvent (values : List CommandResult)
  /-- `edgex_data_client_add_event`, and whether core-data takes the event. -/
  | addEvent (event : EventCooked) (accepted : Bool)
  /-- `edgex_metadata_client_set_device_opstate`. -/
  | setDeviceOpstate (deviceid : Text) (opstate : OperatingState)
  /-- `iot_schedule_remove`. -/
  | scheduleRemove

/-- A firing: what it did, and the `edgex_autoimpl` unless it was freed. -/
structure AeRun where
  effects : List AeEffect
  outcome : Defined (Option EdgexAutoimpl)

section Functions

variable (ft : FloatText) {L : Type} (ld : LongDouble L) (cb : Libcbor)

/-- The part of `ae_runner` after a driver that has succeeded. -/
def aePublish (ai : EdgexAutoimpl) (f : Firing) (dev : DeviceInfo) (results : List CommandResult) :
    AeRun :=
  if ai.onChange ∧ ai.last.any (edgexDeviceCommandresultEqual results) then ⟨[], .ok ai.release⟩
  else
    let resdup := if ai.onChange then some (edgexDeviceCommandresultDup results) else none
    let process := AeEffect.processEvent results
    match edgexDataProcessEvent ft ld cb f.timenow dev.name ai.resource results
        f.svc.datatransform with
    | .error e => ⟨[process], .error e⟩
    | .ok (some event, _) =>
      let ai := if f.accepted ∧ ai.onChange then { ai with last := resdup } else ai
      ⟨[process, .addEvent event f.accepted], .ok ai.release⟩
    | .ok (none, _) => ⟨[process, .setDeviceOpstate dev.id .disabled], .ok ai.release⟩

/-- `ae_runner` behind its first statement. It returns early, and keeps its reference, for a device
that is locked or disabled. -/
def aeRest (ai : EdgexAutoimpl) (f : Firing) : AeRun :=
  match f.dev with
  | none => ⟨[.scheduleRemove], .ok ai.release⟩
  | some dev =>
    if dev.adminState = .locked ∨ dev.operatingState = .disabled then ⟨[], .ok (some ai)⟩
    else
      let nreqs := ai.resource.nreqs
      let reqs := ai.resource.requests
      let call := AeEffect.gethandler dev.name dev.protocols nreqs reqs
      let results := Vector.replicate nreqs CommandResult.zero
      match f.userfns.gethandler dev.name dev.protocols nreqs reqs results with
      | (false, _) => ⟨[call], .ok ai.release⟩
      | (true, results) =>
        let run := aePublish ft ld cb ai f dev results.toList
        ⟨call :: run.effects, run.outcome⟩

/-- `ae_runner`. It takes a reference first. -/
def aeRunner (ai : EdgexAutoimpl) (f : Firing) : AeRun :=
  aeRest ft ld cb { ai with refs := ai.refs + 1 } f

/-- An automatic event over time: the state it keeps, and what each firing so far did. -/
structure AeState where
  ai : EdgexAutoimpl
  log : List (List AeEffect)

/-- A firing that returns, one after the other. -/
def aeStep (s : AeState) (f : Firing) : Option AeState :=
  match (aeRunner ft ld cb s.ai f).outcome with
  | .ok (some ai) => some ⟨ai, s.log ++ [(aeRunner ft ld cb s.ai f).effects]⟩
  | _ => none

end Functions

-- ---------------------------------------------------------------------------
-- Specification
-- ---------------------------------------------------------------------------

/-- The driver succeeds at the firing, with these readings. -/
def Firing.Reads (f : Firing) (ai : EdgexAutoimpl) (results : List CommandResult) : Prop :=
  ∃ dev v, f.dev = some dev ∧
    f.userfns.gethandler dev.name dev.protocols ai.resource.nreqs ai.resource.requests
      (Vector.replicate ai.resource.nreqs CommandResult.zero) = (true, v) ∧
    v.toList = results

/-- The device of the firing is there, unlocked and enabled, and the driver gives no floats. -/
structure Firing.Regular (f : Firing) (ai : EdgexAutoimpl) : Prop where
  device : ∃ dev, f.dev = some dev ∧ dev.adminState ≠ .locked ∧ dev.operatingState ≠ .disabled
  types : ∀ results, f.Reads ai results → ∀ r ∈ results, r.type.isFloat = false

/-- The raw readings of the event that a firing posted successfully. -/
def published : List AeEffect → Option (List RawReading)
  | .processEvent values :: .addEvent _ true :: _ => some (rawReadings values)
  | _ :: effects => published effects
  | [] => none

/-- The raw readings of the events that were posted successfully, in order. -/
def AeState.published (s : AeState) : List (List RawReading) := s.log.filterMap Zigbee.published

/-- The firing goes on to build an event, of the readings it got. -/
def Builds (effects : List AeEffect) (results : List CommandResult) : Prop :=
  .processEvent results ∈ effects

section Spec

variable (ft : FloatText) {L : Type} (ld : LongDouble L) (cb : Libcbor)

/-- Exactly the changes are published. -/
structure PublishesChanges (s : AeState) : Prop where
  /-- The snapshot has the raw readings of the last event that was posted successfully. -/
  last : s.ai.last.map rawReadings = s.published.getLast?
  /-- A firing whose driver succeeds builds an event exactly when its readings differ from the
  snapshot. -/
  builds : ∀ f, f.Regular s.ai → ∀ results, f.Reads s.ai results →
    (Builds (aeRunner ft ld cb s.ai f).effects results ↔
      s.ai.last.map rawReadings ≠ some (rawReadings results))
  /-- The event is then offered to core-data, unless an assertion fails. -/
  offers : ∀ f, f.Regular s.ai → ∀ results ai', f.Reads s.ai results →
    (aeRunner ft ld cb s.ai f).outcome = .ok ai' →
    ((∃ event, .addEvent event f.accepted ∈ (aeRunner ft ld cb s.ai f).effects) ↔
      s.ai.last.map rawReadings ≠ some (rawReadings results) ∧
        ¬ ∃ i req value value',
          ReadingAt ld f.svc.datatransform s.ai.resource results i req value value' ∧
            assertionFails ft req value')
  /-- An unchanged reading is never posted twice in a row. -/
  changes : s.published.IsChain (· ≠ ·)
  /-- A change that was not posted successfully is offered again, if it is still there. -/
  again : ∀ f s' g, f.Regular s.ai → g.Regular s.ai → aeStep ft ld cb s f = some s' →
    ∀ results results', f.Reads s.ai results → Builds (aeRunner ft ld cb s.ai f).effects results →
      Zigbee.published (aeRunner ft ld cb s.ai f).effects = none →
      g.Reads s'.ai results' → rawReadings results' = rawReadings results →
      Builds (aeRunner ft ld cb s'.ai g).effects results'

end Spec

-- ---------------------------------------------------------------------------
-- What a firing does
-- ---------------------------------------------------------------------------

section Firings

variable {ft : FloatText} {L : Type} {ld : LongDouble L} {cb : Libcbor} {ai ai' : EdgexAutoimpl}
  {f : Firing}

/-- The ways through a firing of an on-change event on a regular device: what it does, and the
snapshot afterwards. -/
inductive Fires (ft : FloatText) {L : Type} (ld : LongDouble L) (ai : EdgexAutoimpl) (f : Firing) :
    List AeEffect → Option (List CommandResult) → Prop where
  | driverFails {devname protocols nreqs reqs} (h : ∀ results, ¬ f.Reads ai results) :
      Fires ft ld ai f [.gethandler devname protocols nreqs reqs] ai.last
  | unchanged {devname protocols nreqs reqs results} (h : f.Reads ai results)
      (hsame : ai.last.map rawReadings = some (rawReadings results)) :
      Fires ft ld ai f [.gethandler devname protocols nreqs reqs] ai.last
  | assertionFails {devname protocols nreqs reqs results id} (h : f.Reads ai results)
      (hdiffer : ai.last.map rawReadings ≠ some (rawReadings results))
      (hfails : ∃ i req value value',
        ReadingAt ld f.svc.datatransform ai.resource results i req value value' ∧
          Zigbee.assertionFails ft req value') :
      Fires ft ld ai f [.gethandler devname protocols nreqs reqs, .processEvent results,
        .setDeviceOpstate id .disabled] ai.last
  | offered {devname protocols nreqs reqs results event} (h : f.Reads ai results)
      (hdiffer : ai.last.map rawReadings ≠ some (rawReadings results))
      (hpasses : ¬ ∃ i req value value',
        ReadingAt ld f.svc.datatransform ai.resource results i req value value' ∧
          Zigbee.assertionFails ft req value') :
      Fires ft ld ai f [.gethandler devname protocols nreqs reqs, .processEvent results,
          .addEvent event f.accepted]
        (if f.accepted then some (edgexDeviceCommandresultDup results) else ai.last)

/-- An automatic event between firings: it is in use, and its snapshot is an array for its
resource. -/
structure EdgexAutoimpl.OnChange (ai : EdgexAutoimpl) : Prop where
  onChange : ai.onChange = true
  refs : 1 ≤ ai.refs
  length : ∀ last, ai.last = some last → last.length = ai.resource.nreqs

theorem Firing.Reads.unique {results results' : List CommandResult} (h : f.Reads ai results)
    (h' : f.Reads ai results') : results = results' := by
  obtain ⟨dev, v, hdev, hget, rfl⟩ := h
  obtain ⟨dev', v', hdev', hget', rfl⟩ := h'
  cases hdev.symm.trans hdev'
  cases hget.symm.trans hget'
  rfl

theorem Firing.Reads.length {results : List CommandResult} (h : f.Reads ai results) :
    results.length = ai.resource.nreqs := by
  obtain ⟨dev, v, -, -, rfl⟩ := h
  exact v.length_toList

/-- The comparison of `ae_runner` finds no change exactly when the raw readings are the same. -/
theorem EdgexAutoimpl.OnChange.unchanged_iff (h : ai.OnChange) (hf : f.Regular ai)
    {results : List CommandResult} (hreads : f.Reads ai results) :
    ai.last.any (edgexDeviceCommandresultEqual results) = true ↔
      ai.last.map rawReadings = some (rawReadings results) := by
  cases hlast : ai.last with
  | none => simp
  | some last =>
    have hlen : results.length = last.length := hreads.length.trans (h.length last hlast).symm
    simp only [Option.any_some, Option.map_some, Option.some.injEq]
    rw [commandresultEqual_iff hlen (hf.types results hreads), eq_comm]

/-- The reference that a firing takes is given back. -/
theorem release_retained (ai : EdgexAutoimpl) (h : 1 ≤ ai.refs) :
    EdgexAutoimpl.release { ai with refs := ai.refs + 1 } = some ai := by
  have hne : ¬ ai.refs + 1 = 1 := by omega
  rw [EdgexAutoimpl.release, if_neg hne]
  rfl

variable (ft ld cb) in
/-- A firing on a regular device whose driver succeeds. -/
theorem aeRunner_reads (hf : f.Regular ai) {results : List CommandResult}
    (hreads : f.Reads ai results) : ∃ dev,
      let run := aePublish ft ld cb { ai with refs := ai.refs + 1 } f dev results
      aeRunner ft ld cb ai f =
        ⟨.gethandler dev.name dev.protocols ai.resource.nreqs ai.resource.requests :: run.effects,
          run.outcome⟩ := by
  obtain ⟨dev, v, hdev, hget, rfl⟩ := hreads
  obtain ⟨dev', hdev', hunlocked, henabled⟩ := hf.device
  cases hdev.symm.trans hdev'
  have hregular : ¬ (dev.adminState = .locked ∨ dev.operatingState = .disabled) :=
    not_or.mpr ⟨hunlocked, henabled⟩
  refine ⟨dev, ?_⟩
  simp only [aeRunner, aeRest, hdev, if_neg hregular, hget]

variable (ft ld cb) in
/-- A firing on a regular device whose driver fails. -/
theorem aeRunner_fails (hf : f.Regular ai) (hreads : ∀ results, ¬ f.Reads ai results) :
    ∃ dev : DeviceInfo, aeRunner ft ld cb ai f =
      ⟨[.gethandler dev.name dev.protocols ai.resource.nreqs ai.resource.requests],
        .ok (EdgexAutoimpl.release { ai with refs := ai.refs + 1 })⟩ := by
  obtain ⟨dev, hdev, hunlocked, henabled⟩ := hf.device
  have hregular : ¬ (dev.adminState = .locked ∨ dev.operatingState = .disabled) :=
    not_or.mpr ⟨hunlocked, henabled⟩
  refine ⟨dev, ?_⟩
  simp only [aeRunner, aeRest, hdev, if_neg hregular]
  cases hget : f.userfns.gethandler dev.name dev.protocols ai.resource.nreqs ai.resource.requests
      (Vector.replicate ai.resource.nreqs CommandResult.zero) with
  | mk success v =>
    cases success with
    | false => rfl
    | true => exact absurd ⟨dev, v, hdev, hget, rfl⟩ (hreads v.toList)

/-- Whether a firing goes on to build an event, also where that does not return. -/
theorem aeRunner_builds_iff (h : ai.OnChange) (hf : f.Regular ai) {results : List CommandResult}
    (hreads : f.Reads ai results) :
    Builds (aeRunner ft ld cb ai f).effects results ↔
      ai.last.map rawReadings ≠ some (rawReadings results) := by
  obtain ⟨dev, hrun⟩ := aeRunner_reads ft ld cb hf hreads
  rw [hrun, Ne, ← h.unchanged_iff hf hreads, Builds, aePublish]
  split
  · next hsame => simp [hsame.2]
  · next hchange =>
    have hany : ¬ ai.last.any (edgexDeviceCommandresultEqual results) = true :=
      fun hany => hchange ⟨h.onChange, hany⟩
    refine iff_of_true ?_ hany
    dsimp only
    split
    · simp
    · simp
    · simp

/-- After an event that was offered, the snapshot is the one of its readings where core-data took
it. -/
theorem release_offered (h : ai.OnChange) (accepted : Bool) (results : List CommandResult) :
    EdgexAutoimpl.release
      (if accepted = true ∧ ai.onChange = true then
        { ai with
          last := if ai.onChange = true then some (edgexDeviceCommandresultDup results) else none
          refs := ai.refs + 1 }
      else { ai with refs := ai.refs + 1 }) =
      some { ai with
        last := if accepted = true then some (edgexDeviceCommandresultDup results) else ai.last } := by
  cases accepted with
  | true =>
    rw [if_pos ⟨rfl, h.onChange⟩, if_pos h.onChange, if_pos rfl]
    exact release_retained { ai with last := some (edgexDeviceCommandresultDup results) } h.refs
  | false =>
    rw [if_neg fun hand => Bool.false_ne_true hand.1, if_neg Bool.false_ne_true]
    exact release_retained ai h.refs

/-- What a firing does that returns, and that only its snapshot changes. -/
theorem aeRunner_returns (h : ai.OnChange) (hf : f.Regular ai) {r : Option EdgexAutoimpl}
    (hrun : (aeRunner ft ld cb ai f).outcome = .ok r) :
    ∃ last, r = some { ai with last := last } ∧
      Fires ft ld ai f (aeRunner ft ld cb ai f).effects last := by
  by_cases hsome : ∃ results, f.Reads ai results
  · obtain ⟨results, hreads⟩ := hsome
    obtain ⟨dev, heq⟩ := aeRunner_reads ft ld cb hf hreads
    have hiff := h.unchanged_iff hf hreads
    rw [heq] at hrun ⊢
    by_cases hsame : ai.last.map rawReadings = some (rawReadings results)
    · have hcond : ai.onChange = true ∧
          ai.last.any (edgexDeviceCommandresultEqual results) = true :=
        ⟨h.onChange, hiff.mpr hsame⟩
      simp only [aePublish, if_pos hcond, release_retained ai h.refs] at hrun ⊢
      cases hrun
      exact ⟨ai.last, rfl, .unchanged hreads hsame⟩
    · have hcond : ¬ (ai.onChange = true ∧
          ai.last.any (edgexDeviceCommandresultEqual results) = true) :=
        fun hand => hsame (hiff.mp hand.2)
      simp only [aePublish, if_neg hcond] at hrun ⊢
      cases hevent : edgexDataProcessEvent ft ld cb f.timenow dev.name ai.resource results
          f.svc.datatransform with
      | error e =>
        rw [hevent] at hrun
        cases hrun
      | ok p =>
        obtain ⟨result, values'⟩ := p
        have hassert := edgexDataProcessEvent_eq_none hevent
        rw [hevent] at hrun
        cases result with
        | none =>
          have hrun : EdgexAutoimpl.release { ai with refs := ai.refs + 1 } = r :=
            Except.ok.inj hrun
          rw [release_retained ai h.refs] at hrun
          exact ⟨ai.last, hrun.symm, .assertionFails hreads hsame (hassert.mp rfl)⟩
        | some event =>
          refine ⟨_, ?_, .offered hreads hsame fun hfails => nomatch hassert.mpr hfails⟩
          exact (Except.ok.inj hrun).symm.trans (release_offered h f.accepted results)
  · obtain ⟨dev, heq⟩ := aeRunner_fails ft ld cb hf fun results hreads =>
      hsome ⟨results, hreads⟩
    rw [heq] at hrun ⊢
    rw [release_retained ai h.refs] at hrun
    cases hrun
    exact ⟨ai.last, rfl, .driverFails fun results hreads => hsome ⟨results, hreads⟩⟩

/-- A firing either publishes a change and keeps it, or leaves the snapshot alone. -/
theorem Fires.published {effects : List AeEffect} {last : Option (List CommandResult)}
    (h : Fires ft ld ai f effects last) :
    (Zigbee.published effects = none ∧ last = ai.last) ∨
      ∃ results, Zigbee.published effects = some (rawReadings results) ∧
        last = some (edgexDeviceCommandresultDup results) ∧ f.Reads ai results ∧
        ai.last.map rawReadings ≠ some (rawReadings results) := by
  cases h with
  | driverFails => exact .inl ⟨rfl, rfl⟩
  | unchanged => exact .inl ⟨rfl, rfl⟩
  | assertionFails => exact .inl ⟨rfl, rfl⟩
  | offered hreads hdiffer =>
    cases f.accepted with
    | false => exact .inl ⟨rfl, rfl⟩
    | true => exact .inr ⟨_, rfl, rfl, hreads, hdiffer⟩

end Firings

-- ---------------------------------------------------------------------------
-- Runs
-- ---------------------------------------------------------------------------

section Runs

variable {ft : FloatText} {L : Type} {ld : LongDouble L} {cb : Libcbor} {s s' : AeState}
  {f : Firing}

/-- The snapshot is what was last published, and no two publications in a row are the same. -/
structure AeState.Inv (s : AeState) : Prop where
  ai : s.ai.OnChange
  last : s.ai.last.map rawReadings = s.published.getLast?
  changes : s.published.IsChain (· ≠ ·)

/-- An automatic event as it is started. -/
def AeState.init (resource : CmdInfo) (device : Text) : AeState := ⟨.start resource device true, []⟩

theorem AeState.inv_init (resource : CmdInfo) (device : Text) :
    (AeState.init resource device).Inv where
  ai := ⟨rfl, Nat.le_refl 1, nofun⟩
  last := rfl
  changes := .nil

theorem aeStep_eq_some (h : s.ai.OnChange) (hf : f.Regular s.ai)
    (hstep : aeStep ft ld cb s f = some s') : ∃ last,
      s' = ⟨{ s.ai with last := last }, s.log ++ [(aeRunner ft ld cb s.ai f).effects]⟩ ∧
        Fires ft ld s.ai f (aeRunner ft ld cb s.ai f).effects last := by
  unfold aeStep at hstep
  cases hrun : (aeRunner ft ld cb s.ai f).outcome with
  | error e =>
    rw [hrun] at hstep
    cases hstep
  | ok r =>
    obtain ⟨last, rfl, hfires⟩ := aeRunner_returns h hf hrun
    rw [hrun] at hstep
    cases hstep
    exact ⟨last, rfl, hfires⟩

theorem AeState.Inv.step (h : s.Inv) (hf : f.Regular s.ai) (hstep : aeStep ft ld cb s f = some s') :
    s'.Inv := by
  obtain ⟨last, rfl, hfires⟩ := aeStep_eq_some h.ai hf hstep
  have hpublished : AeState.published
      ⟨{ s.ai with last := last }, s.log ++ [(aeRunner ft ld cb s.ai f).effects]⟩ =
        s.published ++ (Zigbee.published (aeRunner ft ld cb s.ai f).effects).toList := by
    rw [AeState.published, List.filterMap_append]
    rfl
  rcases hfires.published with ⟨hnone, rfl⟩ | ⟨results, hsome, rfl, hreads, hdiffer⟩
  · rw [hnone, Option.toList_none, List.append_nil] at hpublished
    exact ⟨h.ai, by rw [hpublished]; exact h.last, by rw [hpublished]; exact h.changes⟩
  · rw [hsome, Option.toList_some] at hpublished
    refine ⟨⟨h.ai.onChange, h.ai.refs, ?_⟩, ?_, ?_⟩
    · intro last hlast
      cases hlast
      rw [length_dup]
      exact hreads.length
    · rw [hpublished, List.getLast?_append]
      simp
    · rw [hpublished]
      refine h.changes.append (.singleton _) fun x hx y hy => ?_
      -- the last publication is the snapshot, and the readings differ from that
      rw [← h.last] at hx
      cases hy
      rintro rfl
      exact hdiffer hx

theorem AeState.Inv.publishesChanges (h : s.Inv) : PublishesChanges ft ld cb s where
  last := h.last
  builds f hf results hreads := aeRunner_builds_iff h.ai hf hreads
  offers := by
    intro f hf results ai' hreads hrun
    obtain ⟨last, -, hfires⟩ := aeRunner_returns h.ai hf hrun
    generalize (aeRunner ft ld cb s.ai f).effects = effects at hfires
    cases hfires with
    | driverFails hnone => exact absurd hreads (hnone results)
    | unchanged hreads' hsame =>
      obtain rfl := hreads.unique hreads'
      simp [hsame]
    | assertionFails hreads' _ hfails =>
      obtain rfl := hreads.unique hreads'
      simp [hfails]
    | offered hreads' hdiffer hpasses =>
      obtain rfl := hreads.unique hreads'
      exact iff_of_true ⟨_, List.mem_cons_of_mem _ (List.mem_cons_of_mem _ List.mem_cons_self)⟩
        ⟨hdiffer, hpasses⟩
  changes := h.changes
  again := by
    intro f s' g hf hg hstep results results' hreads hbuilds hnone hreads' hraw
    obtain ⟨last, rfl, hfires⟩ := aeStep_eq_some h.ai hf hstep
    rcases hfires.published with ⟨-, rfl⟩ | ⟨_, hsome, -⟩
    · rw [aeRunner_builds_iff h.ai hg hreads', hraw]
      exact (aeRunner_builds_iff h.ai hf hreads).mp hbuilds
    · rw [hnone] at hsome
      cases hsome

/-- In every run of firings on a device that is unlocked and enabled, whatever fails, exactly the
changes are published. -/
theorem autoevent_publishes_changes {resource : CmdInfo} {device : Text} {fs : List Firing}
    (hguard :
      Machine.Guarded (aeStep ft ld cb) (fun s f => f.Regular s.ai) (.init resource device) fs)
    (hrun : Machine.run (aeStep ft ld cb) (.init resource device) fs = some s) :
    PublishesChanges ft ld cb s := by
  have hstep : ∀ {t f t'}, AeState.Inv t → Firing.Regular f t.ai → aeStep ft ld cb t f = some t' →
      AeState.Inv t' := fun h hf hstep => h.step hf hstep
  exact (hguard.invariant hstep hrun (AeState.inv_init resource device)).publishesChanges

end Runs

/-! ### A meter -/

/-- A plug that meters its power. -/
def meterInfo : DeviceInfo where
  protocols := []
  adminState := .unlocked
  created := 0
  description := []
  id := lit "1"
  labels := []
  lastConnected := 0
  lastReported := 0
  modified := 0
  name := lit "Plug"
  operatingState := .enabled
  origin := 0
  autos := []
  service := none

/-- A driver that reads the same power each time. -/
def meterDriver : UserFns where
  gethandler _ _ _ _ readings := (true, readings.map fun _ => plugPower)
  puthandler _ _ _ _ _ := true

def meterFiring (accepted : Bool) : Firing where
  dev := some meterInfo
  userfns := meterDriver
  svc := ⟨true, 16⟩
  timenow := 1000
  accepted := accepted

theorem meterFiring_regular (accepted : Bool) (ai : EdgexAutoimpl) :
    (meterFiring accepted).Regular ai where
  device := ⟨meterInfo, rfl, by decide, by decide⟩
  types := by
    rintro results ⟨dev, v, -, hget, rfl⟩ r hr
    cases hget
    obtain ⟨_, -, rfl⟩ := Vector.mem_map.mp (Vector.mem_toList_iff.mp hr)
    rfl

/-- A post that fails, one that succeeds, and a firing that finds nothing new. -/
theorem meterFirings_publish :
    ∃ s, Machine.run (aeStep FloatText.empty LongDouble.empty Libcbor.ofList)
        (.init (plugRead (lit "Power") .uint16) (lit "Plug"))
        [meterFiring false, meterFiring true, meterFiring true] = some s ∧
      PublishesChanges FloatText.empty LongDouble.empty Libcbor.ofList s := by
  have hguard : ∀ s : AeState,
      Machine.Guarded (aeStep FloatText.empty LongDouble.empty Libcbor.ofList)
        (fun s f => f.Regular s.ai) s [meterFiring false, meterFiring true, meterFiring true] := by
    refine Machine.Guarded.of_forall_mem fun s f hf => ?_
    simp only [List.mem_cons, List.not_mem_nil, or_false] at hf
    rcases hf with rfl | rfl | rfl
    · exact meterFiring_regular false s.ai
    · exact meterFiring_regular true s.ai
    · exact meterFiring_regular true s.ai
  have hsome : (Machine.run (aeStep FloatText.empty LongDouble.empty Libcbor.ofList)
      (.init (plugRead (lit "Power") .uint16) (lit "Plug"))
      [meterFiring false, meterFiring true, meterFiring true]).isSome := by
    decide +kernel
  obtain ⟨s, hrun⟩ := Option.isSome_iff_exists.mp hsome
  exact ⟨s, hrun, autoevent_publishes_changes (hguard _) hrun⟩

end Zigbee
