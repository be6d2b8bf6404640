-- SUMMARY: The copy functions of edgex-rest.c, field by field: a copied device is the device, and its profile answers as the original does.
import ZigbeeService.Devices.Compare
import ZigbeeService.Devices.Index

/-!
# Copies of devices

`edgex_device_dup` and the functions below it name every field that they copy. Two shapes of loop go
over the lists: one hangs each copy to the end, the other puts it in front and so reverses the list.
-/

namespace Zigbee

open CLib

-- ---------------------------------------------------------------------------
-- Lists of strings
-- ---------------------------------------------------------------------------

/-- `edgex_strings_dup`. -/
def edgexStringsDup (strs : Strings) : Strings :=
  strs.foldl (fun result str => result ++ [str]) []

/-- `edgex_nvpairs_dup`. -/
def edgexNvpairsDup (p : NvPairs) : NvPairs :=
  p.foldl (fun result p => result ++ [(p.1, p.2)]) []

-- ---------------------------------------------------------------------------
-- Profiles
-- ---------------------------------------------------------------------------

/-- `propertyvalue_dup`. -/
def propertyvalueDup (pv : PropertyValue) : PropertyValue where
  type := pv.type
  readable := pv.readable
  writable := pv.writable
  minimum := pv.minimum
  maximum := pv.maximum
  defaultvalue := pv.defaultvalue
  lsb := pv.lsb
  mask := pv.mask
  shift := pv.shift
  scale := pv.scale
  offset := pv.offset
  base := pv.base
  assertion := pv.assertion
  precision := pv.precision
  mediaType := pv.mediaType
  floatAsBinary := pv.floatAsBinary

/-- `units_dup`. -/
def unitsDup (u : Units) : Units where
  type := u.type
  readwrite := u.readwrite
  defaultvalue := u.defaultvalue

/-- `profileproperty_dup`. -/
def profilepropertyDup (pp : ProfileProperty) : ProfileProperty where
  value := propertyvalueDup pp.value
  units := unitsDup pp.units

/-- `edgex_deviceresource_dup`. -/
def edgexDeviceresourceDup : List DeviceResource → List DeviceResource
  | [] => []
  | e :: next =>
    { name := e.name
      description := e.description
      tag := e.tag
      properties := profilepropertyDup e.properties
      attributes := edgexNvpairsDup e.attributes } :: edgexDeviceresourceDup next

/-- `resourceoperation_dup`. -/
def resourceoperationDup : List ResourceOperation → List ResourceOperation
  | [] => []
  | ro :: next =>
    { index := ro.index
      operation := ro.operation
      object := ro.object
      property := ro.property
      parameter := ro.parameter
      resource := ro.resource
      secondary := edgexStringsDup ro.secondary
      mappings := edgexNvpairsDup ro.mappings } :: resourceoperationDup next

/-- `devicecommand_dup`. -/
def devicecommandDup : List DeviceCommand → List DeviceCommand
  | [] => []
  | pr :: next =>
    { name := pr.name
      set := resourceoperationDup pr.set
      get := resourceoperationDup pr.get } :: devicecommandDup next

/-- `edgex_deviceprofile_dup`. What it does not name is zero, the table of commands too. -/
def deviceprofileDup (src : DeviceProfile) : DeviceProfile where
  id := src.id
  name := src.name
  description := src.description
  created := src.created
  modified := src.modified
  origin := src.origin
  manufacturer := src.manufacturer
  model := src.model
  labels := edgexStringsDup src.labels
  deviceResources := edgexDeviceresourceDup src.deviceResources
  deviceCommands := devicecommandDup src.deviceCommands
  cmdinfo := []

-- ---------------------------------------------------------------------------
-- Devices
-- ---------------------------------------------------------------------------

/-- `autoevents_dup`. -/
def autoeventsDup : List AutoEvent → List AutoEvent
  | [] => []
  | e :: next =>
    { resource := e.resource
      frequency := e.frequency
      onChange := e.onChange } :: autoeventsDup next

/-- `edgex_protocols_dup`. -/
def protocolsDup (e : List Protocol) : List Protocol :=
  e.foldl (fun result p => ⟨p.name, edgexNvpairsDup p.properties⟩ :: result) []

/-- `edgex_addressable_dup`, of one that is there. -/
def edgexAddressableDup (addr : Addressable) : Addressable where
  name := addr.name
  id := addr.id
  address := addr.address
  method := addr.method
  path := addr.path
  protocol := addr.protocol
  user := addr.user
  password := addr.password
  topic := addr.topic
  publisher := addr.publisher
  created := addr.created
  modified := addr.modified
  origin := addr.origin
  port := addr.port

/-- `edgex_deviceservice_dup`, which does not test for NULL. -/
def edgexDeviceserviceDup : Option DeviceService → Checked DeviceService
  | none => .error .nullPointer
  | some e => .ok
      { name := e.name
        id := e.id
        description := e.description
        labels := edgexStringsDup e.labels
        addressable := e.addressable.map edgexAddressableDup
        adminState := e.adminState
        operatingState := e.operatingState
        origin := e.origin
        created := e.created
        modified := e.modified
        lastConnected := e.lastConnected
        lastReported := e.lastReported }

/-- `edgex_device_dup`. -/
def deviceDup (e : Device) : Checked Device := do
  let service ← edgexDeviceserviceDup e.service
  return {
    name := e.name
    id := e.id
    description := e.description
    labels := edgexStringsDup e.labels
    protocols := protocolsDup e.protocols
    autos := autoeventsDup e.autos
    adminState := e.adminState
    operatingState := e.operatingState
    origin := e.origin
    created := e.created
    modified := e.modified
    lastConnected := e.lastConnected
    lastReported := e.lastReported
    service := some service
    profile := e.profile.map deviceprofileDup }

-- ---------------------------------------------------------------------------
-- Nothing is forgotten
-- ---------------------------------------------------------------------------

@[simp] theorem edgexStringsDup_eq (strs : Strings) : edgexStringsDup strs = strs := by
  rw [edgexStringsDup, List.foldl_append_eq_append, List.nil_append, ← List.flatMap_def,
    List.flatMap_singleton']

@[simp] theorem edgexNvpairsDup_eq (p : NvPairs) : edgexNvpairsDup p = p := by
  rw [edgexNvpairsDup, List.foldl_append_eq_append, List.nil_append, ← List.flatMap_def,
    List.flatMap_singleton']

@[simp] theorem profilepropertyDup_eq (pp : ProfileProperty) : profilepropertyDup pp = pp := rfl

@[simp] theorem edgexDeviceresourceDup_eq (list : List DeviceResource) :
    edgexDeviceresourceDup list = list := by
  induction list with
  | nil => rfl
  | cons e next ih => rw [edgexDeviceresourceDup, ih, edgexNvpairsDup_eq, profilepropertyDup_eq]

@[simp] theorem resourceoperationDup_eq (list : List ResourceOperation) :
    resourceoperationDup list = list := by
  induction list with
  | nil => rfl
  | cons ro next ih => rw [resourceoperationDup, ih, edgexStringsDup_eq, edgexNvpairsDup_eq]

@[simp] theorem devicecommandDup_eq (list : List DeviceCommand) : devicecommandDup list = list := by
  induction list with
  | nil => rfl
  | cons pr next ih => rw [devicecommandDup, ih, resourceoperationDup_eq, resourceoperationDup_eq]

/-- A profile is copied but for its table. -/
theorem deviceprofileDup_eq (src : DeviceProfile) :
    deviceprofileDup src = { src with cmdinfo := [] } := by
  rw [deviceprofileDup, edgexStringsDup_eq, edgexDeviceresourceDup_eq, devicecommandDup_eq]

@[simp] theorem autoeventsDup_eq (list : List AutoEvent) : autoeventsDup list = list := by
  induction list with
  | nil => rfl
  | cons e next ih => rw [autoeventsDup, ih]

theorem protocolsDup_eq (ps : List Protocol) : protocolsDup ps = ps.reverse := by
  simp only [protocolsDup, edgexNvpairsDup_eq]
  exact edgexProtocolsDup_eq ps

theorem edgexDeviceserviceDup_eq (service : DeviceService) :
    edgexDeviceserviceDup (some service) = .ok service := by
  rw [edgexDeviceserviceDup, edgexStringsDup_eq]
  cases h : service.addressable with
  | none => rw [Option.map_none, ← h]
  | some addr => rw [Option.map_some, edgexAddressableDup, ← h]

/-- A device is copied but for the table of its profile, and its protocols change their order. -/
theorem deviceDup_eq {d : Device} {service : DeviceService} (h : d.service = some service) :
    deviceDup d = .ok { d with
      protocols := d.protocols.reverse
      profile := d.profile.map fun prof => { prof with cmdinfo := [] } } := by
  rw [deviceDup, h, edgexDeviceserviceDup_eq, Checked.ok_bind, ← h, protocolsDup_eq,
    edgexStringsDup_eq, autoeventsDup_eq, funext deviceprofileDup_eq]
  rfl

/-- The copy that the device map makes. -/
theorem edgexDeviceDup_eq_deviceDup (d : Device) : edgexDeviceDup d = deviceDup d := by
  cases h : d.service with
  | none => rw [edgexDeviceDup, deviceDup, h, edgexDeviceserviceDup]; rfl
  | some service =>
    rw [deviceDup_eq h, edgexDeviceDup, h, edgexProtocolsDup_eq]
    rfl

-- ---------------------------------------------------------------------------
-- Commands of the copy
-- ---------------------------------------------------------------------------

section Commands

variable {prof cached : DeviceProfile}

/-- A search of the copy gives what a search of the original gives, and both leave one table. -/
theorem findcommand_deviceprofileDup (h : cached.OpsNamed)
    (hcached : Cached { cached with cmdinfo := [] } cached) (name : Text) (forGet : Bool) :
    ∃ info next, edgexDeviceprofileFindcommand name cached forGet = .ok (info, next) ∧
      edgexDeviceprofileFindcommand name (deviceprofileDup cached) forGet = .ok (info, next) ∧
      Cached { cached with cmdinfo := [] } next := by
  have hnamed : ({ cached with cmdinfo := [] } : DeviceProfile).OpsNamed := h
  have horiginal := ensureCmdInfo_eq hnamed rfl hcached
  have hcopy := ensureCmdInfo_eq hnamed rfl (.inl rfl)
  refine ⟨_, _, by rw [edgexDeviceprofileFindcommand, horiginal]; rfl, ?_, .inr rfl⟩
  rw [deviceprofileDup_eq, edgexDeviceprofileFindcommand, hcopy]
  rfl

end Commands

/-- A copied device is the device with its protocols in reverse. Whatever command is looked up in
the profile of one, the other gives the same answer: the same requests with their names and types,
or nothing. -/
theorem deviceDup_faithful {d : Device} {service : DeviceService} {prof : DeviceProfile}
    (hservice : d.service = some service) (hprofile : d.profile = some prof)
    (hnamed : prof.OpsNamed) (hcached : Cached { prof with cmdinfo := [] } prof) :
    ∃ copied, deviceDup d = .ok { d with
        protocols := d.protocols.reverse
        profile := some copied } ∧
      copied = { prof with cmdinfo := [] } ∧
      ∀ name forGet, ∃ info next next',
        edgexDeviceprofileFindcommand name prof forGet = .ok (info, next) ∧
        edgexDeviceprofileFindcommand name copied forGet = .ok (info, next') := by
  refine ⟨_, by rw [deviceDup_eq hservice, hprofile]; rfl, rfl, fun name forGet => ?_⟩
  obtain ⟨info, next, horiginal, hcopy, -⟩ :=
    findcommand_deviceprofileDup hnamed hcached name forGet
  rw [deviceprofileDup_eq] at hcopy
  exact ⟨info, next, next, horiginal, hcopy⟩

/-- A plug with an address in each of two protocols. -/
def addressedPlug : Device :=
  { Devmap.plug (lit "1") (lit "Plug") with
    protocols := [⟨lit "Zigbee", [(lit "MAC", lit "00:0b")]⟩, ⟨lit "Other", []⟩]
    autos := [⟨lit "Power", lit "1s", false⟩] }

/-- Its copy, and the commands of that. -/
theorem deviceDup_faithful_plug :
    ∃ copied, deviceDup addressedPlug = .ok { addressedPlug with
        protocols := [⟨lit "Other", []⟩, ⟨lit "Zigbee", [(lit "MAC", lit "00:0b")]⟩]
        profile := some copied } ∧
      copied = plugProfile ∧
      ∀ name forGet, ∃ info next next',
        edgexDeviceprofileFindcommand name plugProfile forGet = .ok (info, next) ∧
        edgexDeviceprofileFindcommand name copied forGet = .ok (info, next') := by
  have hnamed : plugProfile.OpsNamed := by unfold DeviceProfile.OpsNamed; decide
  exact deviceDup_faithful (d := addressedPlug) rfl rfl hnamed (.inl rfl)

end Zigbee
