-- SUMMARY: The devices that core-metadata sends, from the text it sends to the device map.
import ZigbeeService.Devices.Copy
import ZigbeeService.Rest.Ingest

/-!
# Devices from core-metadata

The devices of a text go into the device map: all of them when the service starts, one in a callback.
What the map and the table of commands then follow has to be there.
-/

namespace Zigbee

open CLib

namespace Devmap

/-- The devices a call puts into the map. -/
def Call.devices : Call → List Device
  | .populate devs => devs
  | .replace dev => [dev]
  | .removeByname _ | .removeByid _ => []

/-- The maps that calls lead to, when all devices put in are complete. -/
inductive Reached : Devmap → Prop where
  | alloc : Reached .alloc
  | call {map map' : Devmap} {c : Call} : Reached map → (∀ d ∈ c.devices, d.Complete) →
      map.call c = .ok map' → Reached map'

section Calls

variable {map map' : Devmap}

theorem held_alloc : Devmap.alloc.Held where
  device h := nomatch h
  registered := fun _ _ h => nomatch h

theorem Held.populateDevice_ok {d : Device} (h : map.Held) (hd : d.Complete) :
    ∃ map', map.populateDevice d = .ok map' ∧ map'.Held := by
  obtain ⟨service, hservice⟩ := hd.service
  obtain ⟨p, hp, hnamed⟩ := hd.profile
  unfold Devmap.populateDevice
  split
  · exact ⟨map, rfl, h⟩
  · obtain ⟨map', hadd⟩ := h.registered.addLocked_ok hp hnamed hservice
    exact ⟨map', hadd, h.addLocked hp hnamed hadd⟩

theorem Held.populateDevices_ok {devs : List Device} (h : map.Held)
    (hdevs : ∀ d ∈ devs, d.Complete) : ∃ map', map.populateDevices devs = .ok map' ∧ map'.Held := by
  induction devs generalizing map with
  | nil => exact ⟨map, rfl, h⟩
  | cons d devs ih =>
    rw [List.forall_mem_cons] at hdevs
    obtain ⟨m, hpop, hm⟩ := h.populateDevice_ok hdevs.1
    obtain ⟨map', hrest, hmap'⟩ := ih hm hdevs.2
    refine ⟨map', ?_, hmap'⟩
    rw [Devmap.populateDevices, hpop, Checked.ok_bind, hrest]

theorem Held.replaceComplete_ok {d : Device} (h : map.Held) (hd : d.Complete) :
    ∃ map', map.replaceDevice d = .ok map' ∧ map'.Held := by
  obtain ⟨service, hservice⟩ := hd.service
  obtain ⟨p, hp, hnamed⟩ := hd.profile
  exact h.replaceDevice_ok hp hnamed hservice

theorem Held.call {c : Call} (h : map.Held) (hc : ∀ d ∈ c.devices, d.Complete)
    (hcall : map.call c = .ok map') : map'.Held := by
  cases c with
  | populate devs =>
    obtain ⟨m, hm, hheld⟩ := h.populateDevices_ok hc
    cases hm.symm.trans hcall
    exact hheld
  | replace dev =>
    obtain ⟨m, hm, hheld⟩ := h.replaceComplete_ok (hc dev List.mem_cons_self)
    cases hm.symm.trans hcall
    exact hheld
  | removeByname name =>
    obtain ⟨found, hfound, hcall⟩ := Checked.bind_eq_ok.mp hcall
    cases found with
    | none =>
      cases hcall
      exact h
    | some a =>
      obtain ⟨-, d, -, -, ha⟩ := findByname_eq_some.mp hfound
      exact h.removeLocked ha hcall
  | removeByid id =>
    rw [Devmap.call, removedeviceByid] at hcall
    split at hcall
    · cases hcall
    · next a ha => exact h.removeLocked ha hcall

theorem Reached.held (h : Reached map) : map.Held := by
  induction h with
  | alloc => exact held_alloc
  | call _ hc hcall ih => exact ih.call hc hcall

end Calls

end Devmap

/-! ## Ingestion -/

section Ingest

variable (parson : Parson) (dt : DoubleText) (json : Text)

/-- A text is taken in: both readers return and give complete devices only, and nothing that uses
such a device follows a NULL pointer. -/
structure TakenIn : Prop where
  device : ∃ result, edgexDeviceRead parson dt json = .ok result ∧
    ∀ d, result = some d → d.Complete
  devices : ∃ devs, edgexDevicesRead parson dt json = .ok devs ∧ ∀ d ∈ devs, d.Complete
  replace : ∀ map d, Devmap.Reached map → edgexDeviceRead parson dt json = .ok (some d) →
    ∃ map', map.replaceDevice d = .ok map'
  populate : ∀ map devs, Devmap.Reached map → edgexDevicesRead parson dt json = .ok devs →
    ∃ map', map.populateDevices devs = .ok map'
  commands : ∀ d p, (edgexDeviceRead parson dt json = .ok (some d) ∨
      ∃ devs, edgexDevicesRead parson dt json = .ok devs ∧ d ∈ devs) → d.profile = some p →
    ∃ p', populateCmdInfo p = .ok p'

variable {parson dt json}

theorem takenIn_of_complete
    (hdevice : ∃ result, edgexDeviceRead parson dt json = .ok result ∧
      ∀ d, result = some d → d.Complete)
    (hdevices : ∃ devs, edgexDevicesRead parson dt json = .ok devs ∧ ∀ d ∈ devs, d.Complete) :
    TakenIn parson dt json := by
  obtain ⟨result, hread, hresult⟩ := hdevice
  obtain ⟨devs, hreads, hdevs⟩ := hdevices
  have hone {d : Device} (h : edgexDeviceRead parson dt json = .ok (some d)) : d.Complete := by
    cases hread.symm.trans h
    exact hresult d rfl
  refine ⟨⟨result, hread, hresult⟩, ⟨devs, hreads, hdevs⟩, ?_, ?_, ?_⟩
  · intro map d hmap h
    obtain ⟨map', hreplace, -⟩ := hmap.held.replaceComplete_ok (hone h)
    exact ⟨map', hreplace⟩
  · intro map devs' hmap h
    cases hreads.symm.trans h
    obtain ⟨map', hpopulate, -⟩ := hmap.held.populateDevices_ok hdevs
    exact ⟨map', hpopulate⟩
  · intro d p h hp
    have hcomplete : d.Complete := by
      rcases h with h | ⟨devs', h, hmem⟩
      · exact hone h
      · cases hreads.symm.trans h
        exact hdevs d hmem
    obtain ⟨q, hq, hnamed⟩ := hcomplete.profile
    cases hq.symm.trans hp
    exact ⟨_, populateCmdInfo_eq hnamed⟩

theorem edgexDeviceRead_complete_iff :
    (∃ result, edgexDeviceRead parson dt json = .ok result ∧
        ∀ d, result = some d → d.Complete) ↔
      ∀ obj, jsonValueGetObject (parson.parse json) = some obj → DeviceReadable dt (some obj) := by
  unfold edgexDeviceRead
  cases jsonValueGetObject (parson.parse json) with
  | none =>
    exact ⟨fun _ => nofun, fun _ => ⟨none, rfl, fun _ hnone => absurd hnone.symm (by simp)⟩⟩
  | some obj =>
    simp only [Option.some.injEq, forall_eq', ← deviceRead_complete_iff, Checked.bind_eq_ok]
    constructor
    · rintro ⟨result, ⟨d, hd, h⟩, hcomplete⟩
      cases h
      exact ⟨d, hd, hcomplete d rfl⟩
    · rintro ⟨d, hd, hcomplete⟩
      refine ⟨some d, ⟨d, hd, rfl⟩, ?_⟩
      rintro d' h
      cases h
      exact hcomplete

theorem edgexDevicesRead_complete_iff :
    (∃ devs, edgexDevicesRead parson dt json = .ok devs ∧ ∀ d ∈ devs, d.Complete) ↔
      ∀ item ∈ jsonArrayItems (jsonValueGetArray (parson.parse json)),
        DeviceReadable dt (jsonValueGetObject (some item)) := by
  rw [edgexDevicesRead, Checked.mapM_all_iff]
  simp only [deviceRead_complete_iff]

/-- The readers check little: a text is taken in exactly when its document holds what they and all
that follows rely on. -/
theorem takenIn_iff (parson : Parson) (dt : DoubleText) (json : Text) :
    TakenIn parson dt json ↔ Ingestible dt (parson.parse json) := by
  have hboth : TakenIn parson dt json ↔
      (∀ obj, jsonValueGetObject (parson.parse json) = some obj → DeviceReadable dt (some obj)) ∧
        ∀ item ∈ jsonArrayItems (jsonValueGetArray (parson.parse json)),
          DeviceReadable dt (jsonValueGetObject (some item)) := by
    rw [← edgexDeviceRead_complete_iff, ← edgexDevicesRead_complete_iff]
    exact ⟨fun h => ⟨h.device, h.devices⟩, fun h => takenIn_of_complete h.1 h.2⟩
  rw [hboth]
  -- a document is an object, an array or neither
  rcases parson.parse json with _ | v
  · exact ⟨fun _ => trivial, fun _ => ⟨nofun, nofun⟩⟩
  · cases v with
    | object obj =>
      refine ⟨fun h => h.1 obj rfl, fun h => ⟨?_, nofun⟩⟩
      rintro obj' hobj
      cases hobj
      exact h
    | array items => exact ⟨fun h => h.2, fun h => ⟨nofun, h⟩⟩
    | _ => exact ⟨fun _ => trivial, fun _ => ⟨nofun, nofun⟩⟩

end Ingest

/-! ### A resource without a type -/

/-- A device whose only resource has no type. -/
def typelessText : Text :=
  lit "\x7b\"profile\":\x7b\"deviceResources\":[\x7b\"name\":\"Switch\",\"properties\":\x7b\"value\":\x7b\x7d\x7d\x7d]\x7d\x7d"

/-- The document in that text. -/
def typelessDocument : Json :=
  .object [(lit "profile", .object [(lit "deviceResources", .array [.object
    [(lit "name", .string (lit "Switch")),
      (lit "properties", .object [(lit "value", .object [])])]])])]

/-- A parser of that text. -/
def typelessParson : Parson where
  parse json := if json = typelessText then some typelessDocument else none
  serialize _ := []

/-- `strcasecmp` gets the NULL that stands for the missing type. -/
theorem typelessText_not_takenIn :
    ¬ TakenIn typelessParson ⟨fun _ => none, fun _ => []⟩ typelessText := by
  intro h
  obtain ⟨result, hread, -⟩ := h.device
  have hfault : edgexDeviceRead typelessParson ⟨fun _ => none, fun _ => []⟩ typelessText =
      .error .nullPointer := by
    rw [edgexDeviceRead, typelessParson]
    simp only [if_true]
    rfl
  rw [hfault] at hread
  cases hread

end Zigbee
