-- SUMMARY: The readers of edgex-rest.c, which turn JSON documents into records.
import ZigbeeService.Rest.Write

/-!
# Readers

The `…_read` functions of `edgex-rest.c`. They take the object they read, which may be NULL: the
getters of parson answer with their defaults then. A reader that hands NULL to `strdup` or
`strcasecmp` faults. The build does not define `LEGIBLE_FLOATS`.
-/

namespace Zigbee

open CLib

/-! ## Strings -/

/-- `get_string`. -/
def getString (obj : Option Members) (name : Text) : Text := (jsonObjectGetString obj name).getD []

/-- `get_boolean`. -/
def getBoolean (obj : Option Members) (name : Text) (dflt : Bool) : Bool :=
  (jsonObjectGetBoolean obj name).getD dflt

/-- A `uint64_t` field read with `json_object_get_number`. -/
def getCount (obj : Option Members) (name : Text) : UInt64 :=
  uint64OfDouble (jsonObjectGetNumber obj name)

/-- `array_to_strings`. -/
def arrayToStrings (array : Option (List Json)) : Strings :=
  (jsonArrayItems array).map fun item => (jsonValueGetString (some item)).getD []

/-- One round of the loop of `nvpairs_read`: `strdup` of a member that is not a string is undefined. -/
def nvpairsReadMember (result : NvPairs) (member : Text × Json) : Checked NvPairs :=
  match jsonValueGetString (some member.2) with
  | none => .error .nullPointer
  | some value => .ok ((member.1, value) :: result)

/-- `nvpairs_read`. -/
def nvpairsRead (obj : Option Members) : Checked NvPairs :=
  (jsonObjectMembers obj).foldlM nvpairsReadMember []

/-! ## Enumerations -/

/-- The property types in the order of `edgex_propertytype`. -/
def PropertyType.all : List PropertyType :=
  [.bool, .string, .binary, .uint8, .uint16, .uint32, .uint64, .int8, .int16, .int32, .int64,
    .float32, .float64]

/-- `edgex_propertytype_fromstring`: `strcasecmp` of NULL is undefined. -/
def edgexPropertytypeFromstring : Option Text → Checked (Option PropertyType)
  | none => .error .nullPointer
  | some str => .ok (PropertyType.all.find? fun i => strcaseeq str (proptypes i))

/-- `edgex_adminstate_fromstring`. -/
def edgexAdminstateFromstring (str : Option Text) : AdminState :=
  if str = some (lit "LOCKED") then .locked else .unlocked

/-- `edgex_operatingstate_fromstring`. -/
def edgexOperatingstateFromstring (str : Option Text) : OperatingState :=
  if str = some (lit "DISABLED") then .disabled else .enabled

/-! ## Profiles -/

/-- The integer types. -/
def PropertyType.isInteger : PropertyType → Bool
  | .int8 | .int16 | .int32 | .int64 | .uint8 | .uint16 | .uint32 | .uint64 => true
  | _ => false

/-- `get_transformArg`; `none` when it returns false. -/
def getTransformArg (dt : DoubleText) (obj : Option Members) (name : Text) (type : PropertyType) :
    Option TransformArg :=
  let str := getString obj name
  if str = [] then some none
  else if type.isInteger then
    let (i, rest) := strtol0 str
    if clampLong i ≠ i ∨ rest ≠ [] then none else some (some (UInt64.ofInt i))
  else if type.isFloat then (dt.strtod str).map some
  else none

/-- The part of `propertyvalue_read` behind a known type. -/
def propertyvalueReadAs (dt : DoubleText) (obj : Option Members) (pt : PropertyType) :
    Option PropertyValue := do
  let scale ← getTransformArg dt obj (lit "scale") pt
  let offset ← getTransformArg dt obj (lit "offset") pt
  let base ← getTransformArg dt obj (lit "base") pt
  let mask ← getTransformArg dt obj (lit "mask") pt
  let shift ← getTransformArg dt obj (lit "shift") pt
  if (mask.isSome || shift.isSome) && pt.isFloat then none
  else
    let rwstring := getString obj (lit "readWrite")
    some {
      type := pt
      readable := rwstring = [] || rwstring.contains (chr 'R')
      writable := rwstring = [] || rwstring.contains (chr 'W')
      minimum := getString obj (lit "minimum")
      maximum := getString obj (lit "maximum")
      defaultvalue := getString obj (lit "defaultValue")
      lsb := getString obj (lit "lsb")
      mask, shift, scale, offset, base
      assertion := getString obj (lit "assertion")
      precision := getString obj (lit "precision")
      mediaType := getString obj (lit "mediaType")
      floatAsBinary := jsonObjectGetString obj (lit "floatEncoding") ≠ some (lit "eNotation") }

/-- `propertyvalue_read`. -/
def propertyvalueRead (dt : DoubleText) (obj : Option Members) :
    Checked (Option PropertyValue) := do
  let pt ← edgexPropertytypeFromstring (jsonObjectGetString obj (lit "type"))
  return pt.bind (propertyvalueReadAs dt obj)

/-- `units_read`. -/
def unitsRead (obj : Option Members) : Units where
  type := getString obj (lit "type")
  readwrite := getString obj (lit "readWrite")
  defaultvalue := getString obj (lit "defaultValue")

/-- `profileproperty_read`. -/
def profilepropertyRead (dt : DoubleText) (obj : Option Members) :
    Checked (Option ProfileProperty) := do
  let val ← propertyvalueRead dt (jsonObjectGetObject obj (lit "value"))
  return val.map fun val => ⟨val, unitsRead (jsonObjectGetObject obj (lit "units"))⟩

/-- `deviceresource_read`. -/
def deviceresourceRead (dt : DoubleText) (obj : Option Members) :
    Checked (Option DeviceResource) := do
  let pp ← profilepropertyRead dt (jsonObjectGetObject obj (lit "properties"))
  match pp with
  | none => return none
  | some properties =>
    let attributes ← nvpairsRead (jsonObjectGetObject obj (lit "attributes"))
    return some {
      name := getString obj (lit "name")
      description := getString obj (lit "description")
      tag := getString obj (lit "tag")
      properties, attributes }

/-- `resourceoperation_read`. -/
def resourceoperationRead (obj : Option Members) : Checked ResourceOperation := do
  let mappings ← nvpairsRead (jsonObjectGetObject obj (lit "mappings"))
  return {
    index := getString obj (lit "index")
    operation := getString obj (lit "operation")
    object := getString obj (lit "object")
    property := getString obj (lit "property")
    parameter := getString obj (lit "parameter")
    resource := getString obj (lit "resource")
    secondary := arrayToStrings (jsonObjectGetArray obj (lit "secondary"))
    mappings }

/-- The loop over the operations of an array. -/
def resourceoperationsRead (array : Option (List Json)) : Checked (List ResourceOperation) :=
  (jsonArrayItems array).mapM fun item => resourceoperationRead (jsonValueGetObject (some item))

/-- `devicecommand_read`. -/
def devicecommandRead (obj : Option Members) : Checked DeviceCommand := do
  let set ← resourceoperationsRead (jsonObjectGetArray obj (lit "set"))
  let get ← resourceoperationsRead (jsonObjectGetArray obj (lit "get"))
  return { name := getString obj (lit "name"), set, get }

/-- The loop over `deviceResources`: it ends at the first one that does not parse. -/
def deviceresourcesRead (dt : DoubleText) : List Json → Checked (Option (List DeviceResource))
  | [] => return some []
  | item :: items => do
    let temp ← deviceresourceRead dt (jsonValueGetObject (some item))
    match temp with
    | none => return none
    | some resource =>
      let rest ← deviceresourcesRead dt items
      return rest.map (resource :: ·)

/-- `deviceprofile_read`. -/
def deviceprofileRead (dt : DoubleText) (obj : Option Members) :
    Checked (Option DeviceProfile) := do
  let resources ← deviceresourcesRead dt
    (jsonArrayItems (jsonObjectGetArray obj (lit "deviceResources")))
  match resources with
  | none => return none
  | some deviceResources =>
    let deviceCommands ← (jsonArrayItems (jsonObjectGetArray obj (lit "deviceCommands"))).mapM
      fun item => devicecommandRead (jsonValueGetObject (some item))
    return some {
      id := getString obj (lit "id")
      name := getString obj (lit "name")
      description := getString obj (lit "description")
      created := getCount obj (lit "created")
      modified := getCount obj (lit "modified")
      origin := getCount obj (lit "origin")
      manufacturer := getString obj (lit "manufacturer")
      model := getString obj (lit "model")
      labels := arrayToStrings (jsonObjectGetArray obj (lit "labels"))
      deviceResources, deviceCommands
      cmdinfo := [] }

/-- `edgex_deviceprofile_read`. -/
def edgexDeviceprofileRead (parson : Parson) (dt : DoubleText) (json : Text) :
    Checked (Option DeviceProfile) :=
  match jsonValueGetObject (parson.parse json) with
  | none => return none
  | some obj => deviceprofileRead dt (some obj)

/-! ## Services -/

/-- `addressable_read`. -/
def addressableRead (obj : Option Members) : Addressable where
  address := getString obj (lit "address")
  created := getCount obj (lit "created")
  id := getString obj (lit "id")
  method := getString obj (lit "method")
  modified := getCount obj (lit "modified")
  name := getString obj (lit "name")
  origin := getCount obj (lit "origin")
  password := getString obj (lit "password")
  path := getString obj (lit "path")
  port := getCount obj (lit "port")
  protocol := getString obj (lit "protocol")
  publisher := getString obj (lit "publisher")
  topic := getString obj (lit "topic")
  user := getString obj (lit "user")

/-- `edgex_addressable_read`. -/
def edgexAddressableRead (parson : Parson) (json : Text) : Option Addressable :=
  (jsonValueGetObject (parson.parse json)).map fun obj => addressableRead (some obj)

/-- `deviceservice_read`. -/
def deviceserviceRead (obj : Option Members) : DeviceService where
  addressable := some (addressableRead (jsonObjectGetObject obj (lit "addressable")))
  adminState := edgexAdminstateFromstring (jsonObjectGetString obj (lit "adminState"))
  created := getCount obj (lit "created")
  description := getString obj (lit "description")
  id := getString obj (lit "id")
  labels := arrayToStrings (jsonObjectGetArray obj (lit "labels"))
  lastConnected := getCount obj (lit "lastConnected")
  lastReported := getCount obj (lit "lastReported")
  modified := getCount obj (lit "modified")
  name := getString obj (lit "name")
  operatingState := edgexOperatingstateFromstring (jsonObjectGetString obj (lit "operatingState"))
  origin := getCount obj (lit "origin")

/-- `edgex_deviceservice_read`. -/
def edgexDeviceserviceRead (parson : Parson) (json : Text) : Option DeviceService :=
  (jsonValueGetObject (parson.parse json)).map fun obj => deviceserviceRead (some obj)

/-! ## Devices -/

/-- `autoevent_read`. -/
def autoeventRead (obj : Option Members) : AutoEvent where
  resource := getString obj (lit "resource")
  onChange := getBoolean obj (lit "onChange") false
  frequency := getString obj (lit "frequency")

/-- One round of the loop of `protocols_read`. -/
def protocolsReadMember (result : List Protocol) (member : Text × Json) :
    Checked (List Protocol) := do
  let properties ← nvpairsRead (jsonValueGetObject (some member.2))
  return ⟨member.1, properties⟩ :: result

/-- `protocols_read`. -/
def protocolsRead (obj : Option Members) : Checked (List Protocol) :=
  (jsonObjectMembers obj).foldlM protocolsReadMember []

/-- `device_read`. The events are put in front of each other. -/
def deviceRead (dt : DoubleText) (obj : Option Members) : Checked Device := do
  let protocols ← protocolsRead (jsonObjectGetObject obj (lit "protocols"))
  let profile ← deviceprofileRead dt (jsonObjectGetObject obj (lit "profile"))
  return {
    protocols
    adminState := edgexAdminstateFromstring (jsonObjectGetString obj (lit "adminState"))
    created := getCount obj (lit "created")
    description := getString obj (lit "description")
    id := getString obj (lit "id")
    labels := arrayToStrings (jsonObjectGetArray obj (lit "labels"))
    lastConnected := getCount obj (lit "lastConnected")
    lastReported := getCount obj (lit "lastReported")
    modified := getCount obj (lit "modified")
    name := getString obj (lit "name")
    operatingState :=
      edgexOperatingstateFromstring (jsonObjectGetString obj (lit "operatingState"))
    origin := getCount obj (lit "origin")
    autos := (jsonArrayItems (jsonObjectGetArray obj (lit "autoEvents"))).foldl
      (fun autos item => autoeventRead (jsonValueGetObject (some item)) :: autos) []
    profile
    service := some (deviceserviceRead (jsonObjectGetObject obj (lit "service"))) }

/-- `edgex_device_read`. -/
def edgexDeviceRead (parson : Parson) (dt : DoubleText) (json : Text) : Checked (Option Device) :=
  match jsonValueGetObject (parson.parse json) with
  | none => return none
  | some obj => do
    let device ← deviceRead dt (some obj)
    return some device

/-- `edgex_devices_read`. -/
def edgexDevicesRead (parson : Parson) (dt : DoubleText) (json : Text) : Checked (List Device) :=
  (jsonArrayItems (jsonValueGetArray (parson.parse json))).mapM fun item =>
    deviceRead dt (jsonValueGetObject (some item))

/-! ## Value descriptors -/

/-- `valuedescriptor_read`. -/
def valuedescriptorRead (obj : Option Members) : ValueDescriptor where
  created := getCount obj (lit "created")
  defaultValue := getString obj (lit "defaultValue")
  description := getString obj (lit "description")
  formatting := getString obj (lit "formatting")
  id := getString obj (lit "id")
  labels := arrayToStrings (jsonObjectGetArray obj (lit "labels"))
  max := getString obj (lit "max")
  min := getString obj (lit "min")
  modified := getCount obj (lit "modified")
  name := getString obj (lit "name")
  origin := getCount obj (lit "origin")
  type := getString obj (lit "type")
  uomLabel := getString obj (lit "uomLabel")
  mediaType := getString obj (lit "mediaType")
  floatEncoding := getString obj (lit "floatEncoding")

/-- `edgex_valuedescriptor_read`. -/
def edgexValuedescriptorRead (parson : Parson) (json : Text) : Option ValueDescriptor :=
  (jsonValueGetObject (parson.parse json)).map fun obj => valuedescriptorRead (some obj)

end Zigbee
