-- SUMMARY: The start of the service against core-metadata: the service, its profiles and its configured devices.
import ZigbeeService.Config.File
import ZigbeeService.Http.ServiceRoutes
import ZigbeeService.Lib.Exchange

/-!
# Registration

`startConfigured` registers the service, its profiles and the devices of its configuration in
core-metadata, each after a look whether it is there already. Any request may fail, which ends the
start; the service is then started again. Core-metadata is a parameter, and so is the parser of the
profile files.
-/

namespace Zigbee

open CLib

-- ---------------------------------------------------------------------------
-- What is registered
-- ---------------------------------------------------------------------------

/-- `edgex_addressable`, as far as `startConfigured` fills it in. -/
structure NewAddressable where
  origin : UInt64
  name : Text
  method : Text
  protocol : Text
  address : Text
  port : UInt16
  path : Text
  deriving DecidableEq

/-- The addressable of a new device service: one that was there, or a new one with its id. -/
inductive OwnAddressable where
  | found (addr : Addressable)
  | created (addr : NewAddressable) (id : Text)
  deriving DecidableEq

/-- `edgex_deviceservice`, as far as `startConfigured` fills it in. -/
structure NewDeviceservice where
  addressable : OwnAddressable
  name : Text
  operatingState : OperatingState
  adminState : AdminState
  created : UInt64
  labels : Strings
  deriving DecidableEq

/-- An event from the file. -/
structure ConfiguredAutoevent where
  resource : Option Text
  frequency : Option Text
  onChange : Bool
  deriving DecidableEq

/-- The device that `edgex_metadata_client_add_device` writes, as far as it fills it in. -/
structure ConfiguredDevice where
  name : Text
  description : Option Text
  adminState : AdminState
  operatingState : OperatingState
  labels : List (Option Text)
  protocols : List Protocol
  serviceName : Text
  profileName : Option Text
  autos : List ConfiguredAutoevent
  deriving DecidableEq

/-- Core-metadata, as far as the start asks it: what is found under a name, and what it does with
something new, which it may refuse. A new object gets an id. -/
structure CoreMetadata (σ : Type) where
  deviceservice : σ → Text → Option DeviceService
  addressable : σ → Text → Option Addressable
  deviceprofile : σ → Text → Option DeviceProfile
  /-- The names of the devices of a service. -/
  devices : σ → Text → List Text
  addAddressable : σ → NewAddressable → Option (σ × Text)
  addDeviceservice : σ → NewDeviceservice → Option (σ × Text)
  /-- The file is uploaded as it is. -/
  addProfileFile : σ → Text → Option (σ × Text)
  addDevice : σ → ConfiguredDevice → Option (σ × Text)

/-- What the service has added. -/
inductive RegisteredKey where
  | addressable (name : Text)
  | deviceservice (name : Text)
  | device (name : Text)
  deriving DecidableEq

/-- `edgex_error`, as far as these functions set it, and what they do that is undefined. -/
inductive StartError where
  | EDGEX_BAD_CONFIG
  | EDGEX_HTTP_SERVER_FAIL
  | EDGEX_PROFILE_PARSE_ERROR
  | EDGEX_HTTP_CONFLICT
  | EDGEX_PROFILES_DIRECTORY
  | EDGEX_HTTP_ERROR
  | fault (f : Fault)
  deriving DecidableEq

-- ---------------------------------------------------------------------------
-- The service
-- ---------------------------------------------------------------------------

/-- What `startConfigured` reads of the service. -/
structure StartingService where
  name : Text
  myhost : Text
  port : UInt16
  /-- The array of labels, unless the pointer to it is NULL. -/
  labels : Option Strings
  /-- `edgex_device_millitime ()` -/
  millis : UInt64

section

variable {σ : Type} (md : CoreMetadata σ)

/-- The addressable under the name of the service, or a new one. -/
def ownAddressable (svc : StartingService) :
    Exchange σ RegisteredKey StartError OwnAddressable := do
  let addr ← Exchange.ask .EDGEX_HTTP_ERROR (md.addressable · svc.name)
  match addr with
  | some addr => return .found addr
  | none =>
    let addr : NewAddressable := {
      origin := svc.millis
      name := svc.name
      method := lit "POST"
      protocol := lit "HTTP"
      address := svc.myhost
      port := svc.port
      path := EDGEX_DEV_API_CALLBACK }
    let id ← Exchange.tell .EDGEX_HTTP_ERROR .EDGEX_HTTP_CONFLICT [.addressable svc.name]
      (md.addAddressable · addr)
    return .created addr id

/-- The part of `startConfigured` behind "Register device service in metadata". Each label is put in
front of the others. -/
def registerService (svc : StartingService) : Exchange σ RegisteredKey StartError Unit := do
  let ds ← Exchange.ask .EDGEX_HTTP_ERROR (md.deviceservice · svc.name)
  match ds with
  | some _ => return
  | none =>
    let addressable ← ownAddressable md svc
    match svc.labels with
    | none => throw (.fault .nullPointer)
    | some labels =>
      let _ ← Exchange.tell .EDGEX_HTTP_ERROR .EDGEX_HTTP_CONFLICT [.deviceservice svc.name]
        (md.addDeviceservice · {
          addressable
          name := svc.name
          operatingState := .enabled
          adminState := .unlocked
          created := svc.millis
          labels := labels.reverse })
      return

-- ---------------------------------------------------------------------------
-- Profiles
-- ---------------------------------------------------------------------------

/-- `yaml_event_t`. -/
inductive YamlEvent where
  | scalar (value : Text)
  | streamEnd
  | other

/-- The loop of `getProfName`. Where the events end, the parser has failed. -/
def profNameLoop (lastWasName : Bool) : List YamlEvent → Option Text
  | [] => none
  | .scalar value :: events =>
    if lastWasName then some value else profNameLoop (strcaseeq value (lit "name")) events
  | .streamEnd :: _ => none
  | .other :: events => profNameLoop false events

/-- A file of the profiles directory. -/
structure ProfileFile where
  fname : Text
  content : Text
  /-- The events of the YAML parser, unless the file cannot be opened. -/
  events : Option (List YamlEvent)

/-- `getProfName`. -/
def getProfName (file : ProfileFile) : Option Text := file.events.bind (profNameLoop false)

def MAX_PATH_SIZE : Nat := 256

/-- `edgex_deviceprofile_get_internal`: whether there is such a profile, and the profiles that the
device map has now. It does not tell a failure from an absent profile. -/
def edgexDeviceprofileGetInternal (known : List Text) (name : Text) :
    Exchange σ RegisteredKey StartError (Bool × List Text) := do
  if name ∈ known then return (true, known)
  let dp ← Exchange.attempt (Exchange.ask .EDGEX_HTTP_ERROR (md.deviceprofile · name))
  match dp with
  | some (some dp) => return (true, dp.name :: known)
  | _ => return (false, known)

/-- `edgex_device_add_profile`. What goes wrong with the value descriptors is only logged. -/
def edgexDeviceAddProfile (known : List Text) (file : ProfileFile) :
    Exchange σ RegisteredKey StartError (List Text) := do
  match getProfName file with
  | none => throw .EDGEX_PROFILE_PARSE_ERROR
  | some profname =>
    let (found, known) ← edgexDeviceprofileGetInternal md known profname
    if found then return known
    let _ ← Exchange.tell .EDGEX_HTTP_ERROR .EDGEX_HTTP_CONFLICT []
      (md.addProfileFile · file.content)
    let (found, known) ← edgexDeviceprofileGetInternal md known profname
    if found then return known
    throw .EDGEX_HTTP_ERROR

/-- The loop of `edgex_device_profiles_upload`, over the files from the last to the first. -/
def profilesUploadLoop (profileDir : Text) (known : List Text) :
    List ProfileFile → Exchange σ RegisteredKey StartError Unit
  | [] => return
  | file :: files => do
    if (profileDir ++ lit "/" ++ file.fname).length < MAX_PATH_SIZE then
      let known ← edgexDeviceAddProfile md known file
      profilesUploadLoop profileDir known files
    else throw .EDGEX_PROFILE_PARSE_ERROR

/-- `edgex_device_profiles_upload`, with the files that `scandir` has found. -/
def edgexDeviceProfilesUpload (profileDir : Text) (filenames : Option (List ProfileFile)) :
    Exchange σ RegisteredKey StartError Unit :=
  match filenames with
  | none => throw .EDGEX_PROFILES_DIRECTORY
  | some filenames => profilesUploadLoop md profileDir [] filenames.reverse

-- ---------------------------------------------------------------------------
-- Devices
-- ---------------------------------------------------------------------------

section Configured

variable (lib : TomlLib)

/-- The name of a device in the file. Without one, `devname` is not set; an empty one is NULL. -/
def configuredName (table : TomlTable) : Checked Text :=
  match tomlRawIn table (lit "Name") with
  | none => .error .uninitialised
  | some raw => do
    match ← tomlRtos2Fresh lib raw with
    | none => .error .nullPointer
    | some devname => return devname

/-- The properties of a protocol, each in front of the others. Raw texts that are no strings are
taken as they are. -/
def protocolProperties (pprops : TomlTable) : NvPairs :=
  pprops.foldl
    (fun pairs entry => match entry.2 with
      | .raw raw => (entry.1, (lib.rtos raw).getD raw) :: pairs
      | _ => pairs) []

/-- The table `Protocols`, unless something in it is no table. -/
def protocolsIn (pptable : TomlTable) : Option (List Protocol) :=
  pptable.foldlM
    (fun protocols entry => match entry.2 with
      | .table pprops => some (⟨entry.1, protocolProperties lib pprops⟩ :: protocols)
      | _ => none) []

/-- An element of `AutoEvents`. -/
def autoeventIn (aetable : TomlTable) : Checked ConfiguredAutoevent := do
  let onChange ← tomlRtob2 lib (tomlRawIn aetable (lit "OnChange")) false
  return {
    resource := tomlRtos2 lib (tomlRawIn aetable (lit "Resource")) none
    frequency := tomlRtos2 lib (tomlRawIn aetable (lit "Frequency")) none
    onChange }

/-- The device that a table describes, apart from its protocols. -/
def deviceIn (svcname devname : Text) (protocols : List Protocol) (table : TomlTable) :
    Checked ConfiguredDevice := do
  let autos ← (tomlTables ((tomlArrayIn table (lit "AutoEvents")).getD [])).mapM (autoeventIn lib)
  let labels ← (tomlRaws ((tomlArrayIn table (lit "Labels")).getD [])).mapM (tomlRtos2Fresh lib)
  return {
    name := devname
    description := tomlRtos2 lib (tomlRawIn table (lit "Description")) none
    adminState := .unlocked
    operatingState := .enabled
    labels := labels.reverse
    protocols
    serviceName := svcname
    profileName := tomlRtos2 lib (tomlRawIn table (lit "Profile")) none
    autos := autos.reverse }

/-- `edgex_devmap_device_byname`: the map holds the devices it was filled with, and those for which
a callback has come since. -/
def deviceByname (svcname : Text) (known : List Text) (name : Text) :
    Exchange σ RegisteredKey StartError Bool := do
  if name ∈ known then return true
  let arrived ← Exchange.attempt
    (Exchange.ask .EDGEX_HTTP_ERROR fun s => decide (name ∈ md.devices s svcname))
  return arrived.getD false

/-- `edgex_device_add_device`. -/
def edgexDeviceAddNewDevice (known : List Text) (dev : ConfiguredDevice) :
    Exchange σ RegisteredKey StartError Unit := do
  if ← deviceByname md dev.serviceName known dev.name then return
  let _ ← Exchange.tell .EDGEX_HTTP_ERROR .EDGEX_HTTP_CONFLICT [.device dev.name]
    (md.addDevice · dev)
  return

/-- The loop of `edgex_device_process_configured_devices`. -/
def edgexDeviceProcessConfiguredDevices (svcname : Text) (known : List Text) :
    List TomlTable → Exchange σ RegisteredKey StartError Unit
  | [] => return
  | table :: devs => do
    let devname ← Exchange.ofChecked .fault (configuredName lib table)
    if ← deviceByname md svcname known devname then
      edgexDeviceProcessConfiguredDevices svcname known devs
    else
      match (tomlTableIn table (lit "Protocols")).bind (protocolsIn lib) with
      | none => throw .EDGEX_BAD_CONFIG
      | some protocols =>
        let dev ← Exchange.ofChecked .fault (deviceIn lib svcname devname protocols table)
        edgexDeviceAddNewDevice md known dev
        edgexDeviceProcessConfiguredDevices svcname known devs

end Configured

-- ---------------------------------------------------------------------------
-- Starts
-- ---------------------------------------------------------------------------

/-- What a start begins with. -/
structure StartInput where
  svc : StartingService
  profilesDir : Text
  filenames : Option (List ProfileFile)
  /-- `edgex_rest_server_create` succeeds. -/
  daemon : Bool
  /-- `DeviceList`, when the configuration was read from a file. -/
  deviceList : Option (List Toml)

/-- The tables of `DeviceList`. -/
def StartInput.devs (input : StartInput) : List TomlTable := tomlTables (input.deviceList.getD [])

/-- `startConfigured`, from the registration of the service to the devices of the configuration. -/
def startConfigured (lib : TomlLib) (input : StartInput) :
    Exchange σ RegisteredKey StartError Unit := do
  registerService md input.svc
  edgexDeviceProfilesUpload md input.profilesDir input.filenames
  let known ← Exchange.ask .EDGEX_HTTP_ERROR (md.devices · input.svc.name)
  if !input.daemon then throw .EDGEX_HTTP_SERVER_FAIL
  edgexDeviceProcessConfiguredDevices md lib input.svc.name known input.devs

end

end Zigbee
