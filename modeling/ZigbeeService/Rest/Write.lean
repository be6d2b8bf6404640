-- SUMMARY: The writers of edgex-rest.c, which turn records into JSON documents.
import ZigbeeService.Lib.Json
import ZigbeeService.Rest.Records

/-!
# Writers

The `…_write` functions of `edgex-rest.c`. A writer that follows a NULL pointer, or prints into a
buffer that is too small, faults.
-/

namespace Zigbee

open CLib

/-- The text level of parson: `json_parse_string` and `json_serialize_to_string`. -/
structure Parson where
  parse : Text → Option Json
  serialize : Json → Text

/-- Parson parses back the text it makes of this document. -/
def Parson.ParsesBack (parson : Parson) (v : Json) : Prop :=
  parson.parse (parson.serialize v) = some v

/-- `strtod` where it accepts the whole text without setting `errno`, and `sprintf` with `%f`, on
the bits of a `double`. -/
structure DoubleText where
  strtod : Text → Option UInt64
  printf : UInt64 → Text

/-! ## Strings -/

/-- `strings_to_array`. -/
def stringsToArray (s : Strings) : Json := .array (s.foldl jsonArrayAppendString [])

/-- `nvpairs_write`. -/
def nvpairsWrite (e : NvPairs) : Json :=
  .object (e.foldl (fun obj nv => jsonObjectSetString obj nv.1 nv.2) [])

/-! ## Enumerations -/

/-- The table `proptypes`. -/
def proptypes : PropertyType → Text
  | .bool => lit "bool"
  | .string => lit "string"
  | .binary => lit "binary"
  | .uint8 => lit "uint8"
  | .uint16 => lit "uint16"
  | .uint32 => lit "uint32"
  | .uint64 => lit "uint64"
  | .int8 => lit "int8"
  | .int16 => lit "int16"
  | .int32 => lit "int32"
  | .int64 => lit "int64"
  | .float32 => lit "float32"
  | .float64 => lit "float64"

/-- `edgex_propertytype_tostring`. -/
def edgexPropertytypeTostring (pt : PropertyType) : Text := proptypes pt

/-- `edgex_adminstate_tostring`. -/
def edgexAdminstateTostring : AdminState → Text
  | .locked => lit "LOCKED"
  | .unlocked => lit "UNLOCKED"

/-- `edgex_operatingstate_tostring`. -/
def edgexOperatingstateTostring : OperatingState → Text
  | .enabled => lit "ENABLED"
  | .disabled => lit "DISABLED"

/-- `rwstrings[readable][writable]`. -/
def rwstrings : Bool → Bool → Text
  | false, false => []
  | false, true => lit "W"
  | true, false => lit "R"
  | true, true => lit "RW"

/-! ## Profiles -/

/-- `Float32` or `Float64`. -/
def PropertyType.isFloat : PropertyType → Bool
  | .float32 | .float64 => true
  | _ => false

/-- `set_arg`. -/
def setArg (dt : DoubleText) (obj : Members) (name : Text) (arg : TransformArg)
    (pt : PropertyType) : Checked Members :=
  match arg with
  | none => return obj
  | some value => do
    let tmp ← sprintf 32 (if pt.isFloat then dt.printf value else decimalInt (ival value))
    return jsonObjectSetString obj name tmp

/-- `propertyvalue_write`. -/
def propertyvalueWrite (dt : DoubleText) (e : PropertyValue) : Checked Json := do
  let obj := jsonObjectSetString [] (lit "type") (edgexPropertytypeTostring e.type)
  let obj := jsonObjectSetString obj (lit "readWrite") (rwstrings e.readable e.writable)
  let obj := jsonObjectSetString obj (lit "minimum") e.minimum
  let obj := jsonObjectSetString obj (lit "maximum") e.maximum
  let obj := jsonObjectSetString obj (lit "defaultValue") e.defaultvalue
  let obj := jsonObjectSetString obj (lit "lsb") e.lsb
  let obj ← setArg dt obj (lit "mask") e.mask e.type
  let obj ← setArg dt obj (lit "shift") e.shift e.type
  let obj ← setArg dt obj (lit "scale") e.scale e.type
  let obj ← setArg dt obj (lit "offset") e.offset e.type
  let obj ← setArg dt obj (lit "base") e.base e.type
  let obj := jsonObjectSetString obj (lit "assertion") e.assertion
  let obj := jsonObjectSetString obj (lit "precision") e.precision
  let obj := jsonObjectSetString obj (lit "floatEncoding")
    (if e.floatAsBinary then lit "base64" else lit "eNotation")
  let obj := jsonObjectSetString obj (lit "mediaType") e.mediaType
  return .object obj

/-- `units_write`. -/
def unitsWrite (e : Units) : Json :=
  let obj := jsonObjectSetString [] (lit "type") e.type
  let obj := jsonObjectSetString obj (lit "readWrite") e.readwrite
  let obj := jsonObjectSetString obj (lit "defaultValue") e.defaultvalue
  .object obj

/-- `profileproperty_write`. -/
def profilepropertyWrite (dt : DoubleText) (e : ProfileProperty) : Checked Json := do
  let value ← propertyvalueWrite dt e.value
  let obj := jsonObjectSetValue [] (lit "value") (some value)
  let obj := jsonObjectSetValue obj (lit "units") (some (unitsWrite e.units))
  return .object obj

/-- `deviceresource_write`. -/
def deviceresourceWrite (dt : DoubleText) (e : DeviceResource) : Checked Json := do
  let obj := jsonObjectSetString [] (lit "name") e.name
  let obj := jsonObjectSetString obj (lit "description") e.description
  let obj := jsonObjectSetString obj (lit "tag") e.tag
  let properties ← profilepropertyWrite dt e.properties
  let obj := jsonObjectSetValue obj (lit "properties") (some properties)
  let obj := jsonObjectSetValue obj (lit "attributes") (some (nvpairsWrite e.attributes))
  return .object obj

/-- `resourceoperation_write`. -/
def resourceoperationWrite (e : ResourceOperation) : Json :=
  let obj := jsonObjectSetString [] (lit "index") e.index
  let obj := jsonObjectSetString obj (lit "operation") e.operation
  let obj := jsonObjectSetString obj (lit "object") e.object
  let obj := jsonObjectSetString obj (lit "property") e.property
  let obj := jsonObjectSetString obj (lit "parameter") e.parameter
  let obj := jsonObjectSetString obj (lit "resource") e.resource
  let obj := jsonObjectSetValue obj (lit "secondary") (some (stringsToArray e.secondary))
  let obj := jsonObjectSetValue obj (lit "mappings") (some (nvpairsWrite e.mappings))
  .object obj

/-- `devicecommand_write`. Both `array` and `array2` are the array of `array_val`: the operations of
`get` are appended to the array stored under `set`, and `array_val2` stays empty. -/
def devicecommandWrite (e : DeviceCommand) : Json :=
  let array := e.set.map resourceoperationWrite
  let array := array ++ e.get.map resourceoperationWrite
  let obj := jsonObjectSetString [] (lit "name") e.name
  let obj := jsonObjectSetValue obj (lit "set") (some (.array array))
  let obj := jsonObjectSetValue obj (lit "get") (some (.array []))
  .object obj

/-- `deviceprofile_write`. -/
def deviceprofileWrite (dt : DoubleText) (e : DeviceProfile) (create : Bool) : Checked Json := do
  let obj : Members := []
  let obj :=
    if !create then
      let obj := jsonObjectSetString obj (lit "id") e.id
      let obj := jsonObjectSetNumber obj (lit "created") e.created
      jsonObjectSetNumber obj (lit "modified") e.modified
    else obj
  let obj := jsonObjectSetString obj (lit "name") e.name
  let obj := jsonObjectSetString obj (lit "description") e.description
  let obj := jsonObjectSetNumber obj (lit "origin") e.origin
  let obj := jsonObjectSetString obj (lit "manufacturer") e.manufacturer
  let obj := jsonObjectSetString obj (lit "model") e.model
  let obj := jsonObjectSetValue obj (lit "labels") (some (stringsToArray e.labels))
  let array ← e.deviceResources.mapM (deviceresourceWrite dt)
  let obj := jsonObjectSetValue obj (lit "deviceResources") (some (.array array))
  let array2 := e.deviceCommands.map devicecommandWrite
  let obj := jsonObjectSetValue obj (lit "deviceCommands") (some (.array array2))
  return .object obj

/-- `edgex_deviceprofile_write`. -/
def edgexDeviceprofileWrite (parson : Parson) (dt : DoubleText) (e : DeviceProfile)
    (create : Bool) : Checked Text := do
  let val ← deviceprofileWrite dt e create
  return parson.serialize val

/-! ## Services -/

/-- `addressable_write`. -/
def addressableWrite (e : Addressable) (create : Bool) : Json :=
  let obj : Members := []
  let obj :=
    if !create then
      let obj := jsonObjectSetString obj (lit "id") e.id
      let obj := jsonObjectSetNumber obj (lit "created") e.created
      jsonObjectSetNumber obj (lit "modified") e.modified
    else obj
  let obj := jsonObjectSetString obj (lit "address") e.address
  let obj := jsonObjectSetString obj (lit "method") e.method
  let obj := jsonObjectSetString obj (lit "name") e.name
  let obj := jsonObjectSetNumber obj (lit "origin") e.origin
  let obj := jsonObjectSetString obj (lit "password") e.password
  let obj := jsonObjectSetString obj (lit "path") e.path
  let obj := jsonObjectSetNumber obj (lit "port") e.port
  let obj := jsonObjectSetString obj (lit "protocol") e.protocol
  let obj := jsonObjectSetString obj (lit "publisher") e.publisher
  let obj := jsonObjectSetString obj (lit "topic") e.topic
  let obj := jsonObjectSetString obj (lit "user") e.user
  .object obj

/-- `edgex_addressable_write`. -/
def edgexAddressableWrite (parson : Parson) (e : Addressable) (create : Bool) : Text :=
  parson.serialize (addressableWrite e create)

/-- `deviceservice_write`. -/
def deviceserviceWrite (e : DeviceService) (create : Bool) : Checked Json := do
  let obj : Members := []
  let obj :=
    if !create then
      let obj := jsonObjectSetString obj (lit "id") e.id
      let obj := jsonObjectSetNumber obj (lit "created") e.created
      jsonObjectSetNumber obj (lit "modified") e.modified
    else obj
  let some addressable := e.addressable | .error .nullPointer
  let obj := jsonObjectSetValue obj (lit "addressable") (some (addressableWrite addressable false))
  let obj := jsonObjectSetString obj (lit "adminState") (edgexAdminstateTostring e.adminState)
  let obj := jsonObjectSetString obj (lit "description") e.description
  let obj := jsonObjectSetValue obj (lit "labels") (some (stringsToArray e.labels))
  let obj := jsonObjectSetNumber obj (lit "lastConnected") e.lastConnected
  let obj := jsonObjectSetNumber obj (lit "lastReported") e.lastReported
  let obj := jsonObjectSetString obj (lit "name") e.name
  let obj := jsonObjectSetString obj (lit "operatingState")
    (edgexOperatingstateTostring e.operatingState)
  let obj := jsonObjectSetNumber obj (lit "origin") e.origin
  return .object obj

/-- `edgex_deviceservice_write`. -/
def edgexDeviceserviceWrite (parson : Parson) (e : DeviceService) (create : Bool) :
    Checked Text := do
  let val ← deviceserviceWrite e create
  return parson.serialize val

/-! ## Devices -/

/-- `autoevents_write`. -/
def autoeventsWrite (e : List AutoEvent) : Json :=
  .array (e.map fun ae =>
    let pobj := jsonObjectSetString [] (lit "resource") ae.resource
    let pobj := jsonObjectSetString pobj (lit "frequency") ae.frequency
    let pobj := jsonObjectSetBoolean pobj (lit "onChange") ae.onChange
    .object pobj)

/-- `protocols_write`. -/
def protocolsWrite (e : List Protocol) : Json :=
  .object (e.foldl
    (fun obj prot => jsonObjectSetValue obj prot.name (some (nvpairsWrite prot.properties))) [])

/-- `deviceprofile_write_name` and `deviceservice_write_name`. -/
def writeName (name : Text) : Json := .object (jsonObjectSetString [] (lit "name") name)

/-- `device_write`. -/
def deviceWrite (dt : DoubleText) (e : Device) (create : Bool) : Checked Json := do
  let obj : Members := []
  let some profile := e.profile | .error .nullPointer
  let some service := e.service | .error .nullPointer
  let obj ←
    if create then
      let obj := jsonObjectSetValue obj (lit "profile") (some (writeName profile.name))
      let obj := jsonObjectSetValue obj (lit "service") (some (writeName service.name))
      let obj := jsonObjectSetNumber obj (lit "lastConnected") 0
      pure (jsonObjectSetNumber obj (lit "lastReported") 0)
    else do
      let obj := jsonObjectSetString obj (lit "adminState") (edgexAdminstateTostring e.adminState)
      let obj := jsonObjectSetString obj (lit "operatingState")
        (edgexOperatingstateTostring e.operatingState)
      let obj := jsonObjectSetString obj (lit "id") e.id
      let obj := jsonObjectSetNumber obj (lit "created") e.created
      let obj := jsonObjectSetNumber obj (lit "modified") e.modified
      let profile ← deviceprofileWrite dt profile false
      let obj := jsonObjectSetValue obj (lit "profile") (some profile)
      let service ← deviceserviceWrite service false
      let obj := jsonObjectSetValue obj (lit "service") (some service)
      let obj := jsonObjectSetNumber obj (lit "lastConnected") e.lastConnected
      pure (jsonObjectSetNumber obj (lit "lastReported") e.lastReported)
  let obj := jsonObjectSetValue obj (lit "protocols") (some (protocolsWrite e.protocols))
  let obj := jsonObjectSetValue obj (lit "autoevents") (some (autoeventsWrite e.autos))
  let obj := jsonObjectSetString obj (lit "adminState") (edgexAdminstateTostring e.adminState)
  let obj := jsonObjectSetString obj (lit "name") e.name
  let obj := jsonObjectSetString obj (lit "description") e.description
  let obj := jsonObjectSetValue obj (lit "labels") (some (stringsToArray e.labels))
  let obj := jsonObjectSetString obj (lit "operatingState")
    (edgexOperatingstateTostring e.operatingState)
  let obj := jsonObjectSetNumber obj (lit "origin") e.origin
  return .object obj

/-- `edgex_device_write`. -/
def edgexDeviceWrite (parson : Parson) (dt : DoubleText) (e : Device) (create : Bool) :
    Checked Text := do
  let val ← deviceWrite dt e create
  return parson.serialize val

/-! ## Value descriptors -/

/-- `valuedescriptor_write`. -/
def valuedescriptorWrite (e : ValueDescriptor) : Json :=
  let obj := jsonObjectSetNumber [] (lit "created") e.created
  let obj := jsonObjectSetString obj (lit "defaultValue") e.defaultValue
  let obj := jsonObjectSetString obj (lit "description") e.description
  let obj := jsonObjectSetString obj (lit "formatting") e.formatting
  let obj := jsonObjectSetString obj (lit "id") e.id
  let obj := jsonObjectSetValue obj (lit "labels") (some (stringsToArray e.labels))
  let obj := jsonObjectSetString obj (lit "max") e.max
  let obj := jsonObjectSetString obj (lit "min") e.min
  let obj := jsonObjectSetNumber obj (lit "modified") e.modified
  let obj := jsonObjectSetString obj (lit "name") e.name
  let obj := jsonObjectSetNumber obj (lit "origin") e.origin
  let obj := jsonObjectSetString obj (lit "type") e.type
  let obj := jsonObjectSetString obj (lit "uomLabel") e.uomLabel
  let obj := jsonObjectSetString obj (lit "floatEncoding") e.floatEncoding
  let obj := jsonObjectSetString obj (lit "mediaType") e.mediaType
  .object obj

/-- `edgex_valuedescriptor_write`. -/
def edgexValuedescriptorWrite (parson : Parson) (e : ValueDescriptor) : Text :=
  parson.serialize (valuedescriptorWrite e)

end Zigbee
