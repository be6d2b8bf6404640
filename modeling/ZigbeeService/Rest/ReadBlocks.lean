-- SUMMARY: The heap blocks that the JSON readers allocate, and those that nobody frees afterwards (edgex-rest.c).
import ZigbeeService.Rest.Balance
import ZigbeeService.Rest.Read

/-!
# Blocks of records that are read

The readers allocate the records whose contents the functions of `Rest.Read` give. Where these say
that a part is missing, the reader has allocated less, or frees what it has allocated so far.
-/

namespace Zigbee

namespace Memory

open CLib CLib.Alloc

-- ---------------------------------------------------------------------------
-- Readers
-- ---------------------------------------------------------------------------

/-- `get_string`. -/
def getString (obj : Option Members) (name : Text) : Alloc Ptr := strdup (Zigbee.getString obj name)

/-- The loop of `array_to_strings`. -/
def stringsRead : List Json → Alloc (List StringsNode)
  | [] => return []
  | item :: items => do
    let temp ← malloc
    let str ← strdup ((jsonValueGetString (some item)).getD [])
    let rest ← stringsRead items
    return ⟨temp, str⟩ :: rest

/-- `array_to_strings`. -/
def arrayToStrings (array : Option (List Json)) : Alloc (List StringsNode) :=
  stringsRead (jsonArrayItems array)

/-- The loop of `nvpairs_read`. -/
def nvpairsReadFrom (result : List NvpairsNode) : Members → Alloc (List NvpairsNode)
  | [] => return result
  | (name, value) :: members => do
    let nv ← malloc
    let name ← strdup name
    match jsonValueGetString (some value) with
    | none => ofChecked (.error .nullPointer)
    | some value =>
      let value ← strdup value
      nvpairsReadFrom (⟨nv, name, value⟩ :: result) members

/-- `nvpairs_read`. -/
def nvpairsRead (obj : Option Members) : Alloc (List NvpairsNode) :=
  nvpairsReadFrom [] (jsonObjectMembers obj)

/-- `propertyvalue_read`. -/
def propertyvalueRead (dt : DoubleText) (obj : Option Members) :
    Alloc (Option PropertyvalueBlocks) := do
  match ← ofChecked (edgexPropertytypeFromstring (jsonObjectGetString obj (lit "type"))) with
  | none => return none
  | some pt =>
    let result ← malloc
    match propertyvalueReadAs dt obj pt with
    | none =>
      free (some result)
      return none
    | some _ =>
      let minimum ← getString obj (lit "minimum")
      let maximum ← getString obj (lit "maximum")
      let defaultvalue ← getString obj (lit "defaultValue")
      let lsb ← getString obj (lit "lsb")
      let assertion ← getString obj (lit "assertion")
      let precision ← getString obj (lit "precision")
      let mediaType ← getString obj (lit "mediaType")
      return some ⟨result, minimum, maximum, defaultvalue, lsb, assertion, precision, mediaType⟩

/-- `units_read`. -/
def unitsRead (obj : Option Members) : Alloc UnitsBlocks := do
  let result ← malloc
  let type ← getString obj (lit "type")
  let readwrite ← getString obj (lit "readWrite")
  let defaultvalue ← getString obj (lit "defaultValue")
  return ⟨result, type, readwrite, defaultvalue⟩

/-- `profileproperty_read`. -/
def profilepropertyRead (dt : DoubleText) (obj : Option Members) :
    Alloc (Option ProfilepropertyBlocks) := do
  match ← propertyvalueRead dt (jsonObjectGetObject obj (lit "value")) with
  | none => return none
  | some val =>
    let result ← malloc
    let units ← unitsRead (jsonObjectGetObject obj (lit "units"))
    return some ⟨result, val, units⟩

/-- `deviceresource_read`. The name is copied in any case, and only kept with the property. -/
def deviceresourceRead (dt : DoubleText) (obj : Option Members) :
    Alloc (Option DeviceresourceNode) := do
  let pp ← profilepropertyRead dt (jsonObjectGetObject obj (lit "properties"))
  let name ← getString obj (lit "name")
  match pp with
  | none => return none
  | some pp =>
    let result ← malloc
    let description ← getString obj (lit "description")
    let tag ← getString obj (lit "tag")
    let attributes ← nvpairsRead (jsonObjectGetObject obj (lit "attributes"))
    return some ⟨result, name, description, tag, pp, attributes⟩

/-- `resourceoperation_read`. -/
def resourceoperationRead (obj : Option Members) : Alloc ResourceoperationNode := do
  let result ← malloc
  let index ← getString obj (lit "index")
  let operation ← getString obj (lit "operation")
  let object ← getString obj (lit "object")
  let property ← getString obj (lit "property")
  let parameter ← getString obj (lit "parameter")
  let resource ← getString obj (lit "resource")
  let secondary ← arrayToStrings (jsonObjectGetArray obj (lit "secondary"))
  let mappings ← nvpairsRead (jsonObjectGetObject obj (lit "mappings"))
  return ⟨result, index, operation, object, property, parameter, resource, secondary, mappings⟩

/-- The loop over the operations of an array. -/
def resourceoperationsRead : List Json → Alloc (List ResourceoperationNode)
  | [] => return []
  | item :: items => do
    let temp ← resourceoperationRead (jsonValueGetObject (some item))
    let rest ← resourceoperationsRead items
    return temp :: rest

/-- `devicecommand_read`. -/
def devicecommandRead (obj : Option Members) : Alloc DevicecommandNode := do
  let result ← malloc
  let name ← getString obj (lit "name")
  let set ← resourceoperationsRead (jsonArrayItems (jsonObjectGetArray obj (lit "set")))
  let get ← resourceoperationsRead (jsonArrayItems (jsonObjectGetArray obj (lit "get")))
  return ⟨result, name, set, get⟩

/-- The loop over `deviceCommands`. -/
def devicecommandsRead : List Json → Alloc (List DevicecommandNode)
  | [] => return []
  | item :: items => do
    let temp ← devicecommandRead (jsonValueGetObject (some item))
    let rest ← devicecommandsRead items
    return temp :: rest

/-- The loop over `deviceResources`: the list so far, and whether it came to its end. -/
def deviceresourcesRead (dt : DoubleText) : List Json → Alloc (List DeviceresourceNode × Bool)
  | [] => return ([], true)
  | item :: items => do
    match ← deviceresourceRead dt (jsonValueGetObject (some item)) with
    | none => return ([], false)
    | some temp =>
      let (rest, complete) ← deviceresourcesRead dt items
      return (temp :: rest, complete)

/-- `deviceprofile_read`. A NULL pointer is the empty list. -/
def deviceprofileRead (dt : DoubleText) (obj : Option Members) :
    Alloc (List DeviceprofileNode) := do
  let result ← malloc
  let id ← getString obj (lit "id")
  let name ← getString obj (lit "name")
  let description ← getString obj (lit "description")
  let manufacturer ← getString obj (lit "manufacturer")
  let model ← getString obj (lit "model")
  let labels ← arrayToStrings (jsonObjectGetArray obj (lit "labels"))
  let (deviceResources, complete) ←
    deviceresourcesRead dt (jsonArrayItems (jsonObjectGetArray obj (lit "deviceResources")))
  if complete then
    let deviceCommands ←
      devicecommandsRead (jsonArrayItems (jsonObjectGetArray obj (lit "deviceCommands")))
    return [⟨result, id, name, description, manufacturer, model, labels, deviceResources,
      deviceCommands, []⟩]
  else
    edgexDeviceprofileFree [⟨result, id, name, description, manufacturer, model, labels,
      deviceResources, [], []⟩]
    return []

/-- `addressable_read`. -/
def addressableRead (obj : Option Members) : Alloc AddressableBlocks := do
  let result ← malloc
  let address ← getString obj (lit "address")
  let id ← getString obj (lit "id")
  let method ← getString obj (lit "method")
  let name ← getString obj (lit "name")
  let password ← getString obj (lit "password")
  let path ← getString obj (lit "path")
  let protocol ← getString obj (lit "protocol")
  let publisher ← getString obj (lit "publisher")
  let topic ← getString obj (lit "topic")
  let user ← getString obj (lit "user")
  return ⟨result, address, id, name, method, password, path, protocol, publisher, topic, user⟩

/-- `deviceservice_read`. -/
def deviceserviceRead (obj : Option Members) : Alloc DeviceserviceBlocks := do
  let result ← malloc
  let addressable ← addressableRead (jsonObjectGetObject obj (lit "addressable"))
  let description ← getString obj (lit "description")
  let id ← getString obj (lit "id")
  let labels ← arrayToStrings (jsonObjectGetArray obj (lit "labels"))
  let name ← getString obj (lit "name")
  return ⟨result, some addressable, description, id, labels, name⟩

/-- The loop over `autoEvents`, with `autoevent_read`. -/
def autoeventsRead (autos : List AutoeventsNode) : List Json → Alloc (List AutoeventsNode)
  | [] => return autos
  | item :: items => do
    let temp ← malloc
    let resource ← getString (jsonValueGetObject (some item)) (lit "resource")
    let frequency ← getString (jsonValueGetObject (some item)) (lit "frequency")
    autoeventsRead (⟨temp, resource, frequency⟩ :: autos) items

/-- The loop of `protocols_read`. -/
def protocolsReadFrom (result : List ProtocolsNode) : Members → Alloc (List ProtocolsNode)
  | [] => return result
  | (name, pval) :: members => do
    let prot ← malloc
    let name ← strdup name
    let properties ← nvpairsRead (jsonValueGetObject (some pval))
    protocolsReadFrom (⟨prot, name, properties⟩ :: result) members

/-- `device_read`. -/
def deviceRead (dt : DoubleText) (obj : Option Members) : Alloc DeviceNode := do
  let result ← malloc
  let protocols ←
    protocolsReadFrom [] (jsonObjectMembers (jsonObjectGetObject obj (lit "protocols")))
  let description ← getString obj (lit "description")
  let id ← getString obj (lit "id")
  let labels ← arrayToStrings (jsonObjectGetArray obj (lit "labels"))
  let name ← getString obj (lit "name")
  let autos ← autoeventsRead [] (jsonArrayItems (jsonObjectGetArray obj (lit "autoEvents")))
  let profile ← deviceprofileRead dt (jsonObjectGetObject obj (lit "profile"))
  let service ← deviceserviceRead (jsonObjectGetObject obj (lit "service"))
  return ⟨result, protocols, autos, description, id, labels, name, profile, some service⟩

/-- The loop of `edgex_devices_read`. -/
def devicesRead (dt : DoubleText) : List Json → Alloc (List DeviceNode)
  | [] => return []
  | item :: items => do
    let temp ← deviceRead dt (jsonValueGetObject (some item))
    let rest ← devicesRead dt items
    return temp :: rest

end Memory

end Zigbee
