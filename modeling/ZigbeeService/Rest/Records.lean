-- SUMMARY: The records of the EdgeX data model: devices, services, addressables, profiles and value descriptors.
import ZigbeeService.Sdk.Value

/-!
# Records

The structures of `edgex.h`, `edgex-base.h`, `cmdinfo.h` and `data.h`. A linked list is a list. A
pointer to a structure that some reader leaves NULL is an `Option`; strings are never NULL.
-/

namespace Zigbee

open CLib

/-- `edgex_strings`. -/
abbrev Strings := List Text

/-- `edgex_nvpairs`: names with their values. -/
abbrev NvPairs := List (Text × Text)

/-- `edgex_device_adminstate`. -/
inductive AdminState where
  | locked
  | unlocked
  deriving DecidableEq, Repr

/-- `edgex_device_operatingstate`. -/
inductive OperatingState where
  | enabled
  | disabled
  deriving DecidableEq, Repr

/-- `edgex_transformArg`: when it is enabled, the bits of its `int64_t` or `double`. -/
abbrev TransformArg := Option UInt64

/-- `value.ival`. -/
def ival (value : UInt64) : Int := toSigned 64 value.toNat

/-- `edgex_propertyvalue`. -/
structure PropertyValue where
  type : PropertyType
  readable : Bool
  writable : Bool
  minimum : Text
  maximum : Text
  defaultvalue : Text
  lsb : Text
  mask : TransformArg
  shift : TransformArg
  scale : TransformArg
  offset : TransformArg
  base : TransformArg
  assertion : Text
  precision : Text
  mediaType : Text
  floatAsBinary : Bool
  deriving DecidableEq

/-- `edgex_units`. -/
structure Units where
  type : Text
  readwrite : Text
  defaultvalue : Text
  deriving DecidableEq

/-- `edgex_profileproperty`. -/
structure ProfileProperty where
  value : PropertyValue
  units : Units
  deriving DecidableEq

/-- `edgex_deviceresource`. -/
structure DeviceResource where
  description : Text
  name : Text
  tag : Text
  properties : ProfileProperty
  attributes : NvPairs
  deriving DecidableEq

/-- `edgex_resourceoperation`. -/
structure ResourceOperation where
  index : Text
  operation : Text
  object : Text
  property : Text
  parameter : Text
  resource : Text
  secondary : Strings
  mappings : NvPairs
  deriving DecidableEq

/-- `edgex_devicecommand`. -/
structure DeviceCommand where
  name : Text
  set : List ResourceOperation
  get : List ResourceOperation
  deriving DecidableEq

/-- `edgex_device_commandrequest`, with the attributes that the driver of this repository does not
read. -/
structure DeviceCommandRequest extends CommandRequest where
  attributes : NvPairs
  deriving DecidableEq

/-- One position of the arrays `reqs`, `pvals` and `maps` of a command. -/
structure CmdRequest extends DeviceCommandRequest where
  pval : PropertyValue
  map : NvPairs
  deriving DecidableEq

/-- `edgex_cmdinfo`. The three arrays of length `nreqs` are one list. -/
structure CmdInfo where
  name : Text
  isget : Bool
  reqs : List CmdRequest
  deriving DecidableEq

/-- `nreqs`. -/
def CmdInfo.nreqs (command : CmdInfo) : Nat := command.reqs.length

/-- `edgex_deviceprofile`. The table of commands is empty until it is first asked for. -/
structure DeviceProfile where
  id : Text
  name : Text
  description : Text
  created : UInt64
  modified : UInt64
  origin : UInt64
  manufacturer : Text
  model : Text
  labels : Strings
  deviceResources : List DeviceResource
  deviceCommands : List DeviceCommand
  cmdinfo : List CmdInfo
  deriving DecidableEq

/-- `edgex_addressable`. -/
structure Addressable where
  address : Text
  created : UInt64
  id : Text
  method : Text
  modified : UInt64
  name : Text
  origin : UInt64
  password : Text
  path : Text
  port : UInt64
  protocol : Text
  publisher : Text
  topic : Text
  user : Text
  deriving DecidableEq

/-- `edgex_deviceservice`. -/
structure DeviceService where
  addressable : Option Addressable
  adminState : AdminState
  created : UInt64
  description : Text
  id : Text
  labels : Strings
  lastConnected : UInt64
  lastReported : UInt64
  modified : UInt64
  name : Text
  operatingState : OperatingState
  origin : UInt64
  deriving DecidableEq

/-- `edgex_device_autoevents`: one event. -/
structure AutoEvent where
  resource : Text
  frequency : Text
  onChange : Bool
  deriving DecidableEq

/-- `edgex_protocols`: one protocol. -/
structure Protocol where
  name : Text
  properties : NvPairs
  deriving DecidableEq

/-- The fields of `edgex_device` that a device holds itself. -/
structure DeviceInfo where
  protocols : List Protocol
  adminState : AdminState
  created : UInt64
  description : Text
  id : Text
  labels : Strings
  lastConnected : UInt64
  lastReported : UInt64
  modified : UInt64
  name : Text
  operatingState : OperatingState
  origin : UInt64
  autos : List AutoEvent
  service : Option DeviceService
  deriving DecidableEq

/-- `edgex_device` with a profile of its own. -/
structure Device extends DeviceInfo where
  profile : Option DeviceProfile
  deriving DecidableEq

/-- `edgex_valuedescriptor`. -/
structure ValueDescriptor where
  created : UInt64
  defaultValue : Text
  description : Text
  formatting : Text
  id : Text
  labels : Strings
  max : Text
  min : Text
  modified : UInt64
  name : Text
  origin : UInt64
  type : Text
  uomLabel : Text
  mediaType : Text
  floatEncoding : Text
  deriving DecidableEq

end Zigbee
