-- SUMMARY: The heap blocks of the EdgeX records: which ones the copy functions allocate and the free functions free (edgex-rest.c).
import Mathlib.Tactic.Abel
import ZigbeeService.Lib.Alloc
import ZigbeeService.Rest.Records

/-!
# Blocks of records

A record is a tree of blocks: a structure, the strings it points to, and the structures that hang on
it. Here a record is the addresses of its blocks; what is in them is told by the functions on the
records themselves. The blocks are listed in the order in which they are freed.
-/

namespace Zigbee

namespace Memory

open CLib CLib.Alloc

-- ---------------------------------------------------------------------------
-- Structures
-- ---------------------------------------------------------------------------

/-- A node of an `edgex_strings`. -/
structure StringsNode where
  addr : Nat
  str : Ptr

/-- A node of an `edgex_nvpairs`. -/
structure NvpairsNode where
  addr : Nat
  name : Ptr
  value : Ptr

/-- `edgex_propertyvalue`. -/
structure PropertyvalueBlocks where
  addr : Nat
  minimum : Ptr
  maximum : Ptr
  defaultvalue : Ptr
  lsb : Ptr
  assertion : Ptr
  precision : Ptr
  mediaType : Ptr

/-- `edgex_units`. -/
structure UnitsBlocks where
  addr : Nat
  type : Ptr
  readwrite : Ptr
  defaultvalue : Ptr

/-- `edgex_profileproperty`. -/
structure ProfilepropertyBlocks where
  addr : Nat
  value : PropertyvalueBlocks
  units : UnitsBlocks

/-- A node of the list of an `edgex_deviceresource`. -/
structure DeviceresourceNode where
  addr : Nat
  name : Ptr
  description : Ptr
  tag : Ptr
  properties : ProfilepropertyBlocks
  attributes : List NvpairsNode

/-- A node of the list of an `edgex_resourceoperation`. -/
structure ResourceoperationNode where
  addr : Nat
  index : Ptr
  operation : Ptr
  object : Ptr
  property : Ptr
  parameter : Ptr
  resource : Ptr
  secondary : List StringsNode
  mappings : List NvpairsNode

/-- A node of the list of an `edgex_devicecommand`. -/
structure DevicecommandNode where
  addr : Nat
  name : Ptr
  set : List ResourceoperationNode
  get : List ResourceoperationNode

/-- A node of the list of an `edgex_cmdinfo`, which shares its texts with the profile. -/
structure CmdinfoNode where
  addr : Nat
  reqs : Ptr
  pvals : Ptr
  maps : Ptr

/-- A node of the list of an `edgex_deviceprofile`. -/
structure DeviceprofileNode where
  addr : Nat
  id : Ptr
  name : Ptr
  description : Ptr
  manufacturer : Ptr
  model : Ptr
  labels : List StringsNode
  deviceResources : List DeviceresourceNode
  deviceCommands : List DevicecommandNode
  cmdinfo : List CmdinfoNode

/-- A node of an `edgex_device_autoevents`. -/
structure AutoeventsNode where
  addr : Nat
  resource : Ptr
  frequency : Ptr

/-- A node of an `edgex_protocols`. -/
structure ProtocolsNode where
  addr : Nat
  name : Ptr
  properties : List NvpairsNode

/-- `edgex_addressable`. -/
structure AddressableBlocks where
  addr : Nat
  address : Ptr
  id : Ptr
  name : Ptr
  method : Ptr
  password : Ptr
  path : Ptr
  protocol : Ptr
  publisher : Ptr
  topic : Ptr
  user : Ptr

/-- `edgex_deviceservice`. -/
structure DeviceserviceBlocks where
  addr : Nat
  addressable : Option AddressableBlocks
  description : Ptr
  id : Ptr
  labels : List StringsNode
  name : Ptr

/-- A node of the list of an `edgex_device`. -/
structure DeviceNode where
  addr : Nat
  protocols : List ProtocolsNode
  autos : List AutoeventsNode
  description : Ptr
  id : Ptr
  labels : List StringsNode
  name : Ptr
  profile : List DeviceprofileNode
  service : Option DeviceserviceBlocks

-- ---------------------------------------------------------------------------
-- The free functions
-- ---------------------------------------------------------------------------

/-- `edgex_strings_free`. -/
def edgexStringsFree : List StringsNode → Alloc Unit
  | [] => pure ()
  | strs :: next => do
    free (← load strs.addr strs.str)
    -- `strs->next` is read before the node is freed
    load strs.addr ()
    free (some strs.addr)
    edgexStringsFree next

/-- `edgex_nvpairs_free`. -/
def edgexNvpairsFree : List NvpairsNode → Alloc Unit
  | [] => pure ()
  | p :: next => do
    free (← load p.addr p.name)
    free (← load p.addr p.value)
    load p.addr ()
    free (some p.addr)
    edgexNvpairsFree next

/-- `propertyvalue_free`. -/
def propertyvalueFree (e : PropertyvalueBlocks) : Alloc Unit := do
  free (← load e.addr e.minimum)
  free (← load e.addr e.maximum)
  free (← load e.addr e.defaultvalue)
  free (← load e.addr e.lsb)
  free (← load e.addr e.assertion)
  free (← load e.addr e.precision)
  free (← load e.addr e.mediaType)
  free (some e.addr)

/-- `units_free`. -/
def unitsFree (e : UnitsBlocks) : Alloc Unit := do
  free (← load e.addr e.type)
  free (← load e.addr e.readwrite)
  free (← load e.addr e.defaultvalue)
  free (some e.addr)

/-- `profileproperty_free`. -/
def profilepropertyFree (e : ProfilepropertyBlocks) : Alloc Unit := do
  propertyvalueFree (← load e.addr e.value)
  unitsFree (← load e.addr e.units)
  free (some e.addr)

/-- `deviceresource_free`. -/
def deviceresourceFree : List DeviceresourceNode → Alloc Unit
  | [] => pure ()
  | e :: next => do
    free (← load e.addr e.name)
    free (← load e.addr e.description)
    free (← load e.addr e.tag)
    profilepropertyFree (← load e.addr e.properties)
    edgexNvpairsFree (← load e.addr e.attributes)
    load e.addr ()
    free (some e.addr)
    deviceresourceFree next

/-- `resourceoperation_free`. -/
def resourceoperationFree : List ResourceoperationNode → Alloc Unit
  | [] => pure ()
  | e :: next => do
    free (← load e.addr e.index)
    free (← load e.addr e.operation)
    free (← load e.addr e.object)
    free (← load e.addr e.property)
    free (← load e.addr e.parameter)
    free (← load e.addr e.resource)
    edgexStringsFree (← load e.addr e.secondary)
    edgexNvpairsFree (← load e.addr e.mappings)
    load e.addr ()
    free (some e.addr)
    resourceoperationFree next

/-- `devicecommand_free`. -/
def devicecommandFree : List DevicecommandNode → Alloc Unit
  | [] => pure ()
  | e :: next => do
    free (← load e.addr e.name)
    resourceoperationFree (← load e.addr e.set)
    resourceoperationFree (← load e.addr e.get)
    load e.addr ()
    free (some e.addr)
    devicecommandFree next

/-- `cmdinfo_free`. -/
def cmdinfoFree : List CmdinfoNode → Alloc Unit
  | [] => pure ()
  | inf :: next => do
    load inf.addr ()
    cmdinfoFree next
    free (← load inf.addr inf.reqs)
    free (← load inf.addr inf.pvals)
    free (← load inf.addr inf.maps)
    free (some inf.addr)

/-- `edgex_deviceprofile_free`. -/
def edgexDeviceprofileFree : List DeviceprofileNode → Alloc Unit
  | [] => pure ()
  | e :: next => do
    load e.addr ()
    free (← load e.addr e.id)
    free (← load e.addr e.name)
    free (← load e.addr e.description)
    free (← load e.addr e.manufacturer)
    free (← load e.addr e.model)
    edgexStringsFree (← load e.addr e.labels)
    deviceresourceFree (← load e.addr e.deviceResources)
    devicecommandFree (← load e.addr e.deviceCommands)
    cmdinfoFree (← load e.addr e.cmdinfo)
    free (some e.addr)
    edgexDeviceprofileFree next

/-- `edgex_device_autoevents_free`. -/
def edgexDeviceAutoeventsFree : List AutoeventsNode → Alloc Unit
  | [] => pure ()
  | e :: next => do
    free (← load e.addr e.resource)
    free (← load e.addr e.frequency)
    load e.addr ()
    edgexDeviceAutoeventsFree next
    free (some e.addr)

/-- `edgex_protocols_free`. -/
def edgexProtocolsFree : List ProtocolsNode → Alloc Unit
  | [] => pure ()
  | e :: next => do
    free (← load e.addr e.name)
    edgexNvpairsFree (← load e.addr e.properties)
    load e.addr ()
    edgexProtocolsFree next
    free (some e.addr)

/-- `edgex_addressable_free`. -/
def edgexAddressableFree : Option AddressableBlocks → Alloc Unit
  | none => pure ()
  | some e => do
    free (← load e.addr e.address)
    free (← load e.addr e.id)
    free (← load e.addr e.name)
    free (← load e.addr e.method)
    free (← load e.addr e.password)
    free (← load e.addr e.path)
    free (← load e.addr e.protocol)
    free (← load e.addr e.publisher)
    free (← load e.addr e.topic)
    free (← load e.addr e.user)
    free (some e.addr)

/-- `edgex_deviceservice_free`. -/
def edgexDeviceserviceFree : Option DeviceserviceBlocks → Alloc Unit
  | none => pure ()
  | some e => do
    edgexAddressableFree (← load e.addr e.addressable)
    free (← load e.addr e.description)
    free (← load e.addr e.id)
    edgexStringsFree (← load e.addr e.labels)
    free (← load e.addr e.name)
    free (some e.addr)

/-- `edgex_device_free`. -/
def edgexDeviceFree : List DeviceNode → Alloc Unit
  | [] => pure ()
  | e :: next => do
    edgexProtocolsFree (← load e.addr e.protocols)
    edgexDeviceAutoeventsFree (← load e.addr e.autos)
    free (← load e.addr e.description)
    free (← load e.addr e.id)
    edgexStringsFree (← load e.addr e.labels)
    free (← load e.addr e.name)
    edgexDeviceprofileFree (← load e.addr e.profile)
    edgexDeviceserviceFree (← load e.addr e.service)
    load e.addr ()
    free (some e.addr)
    edgexDeviceFree next

-- ---------------------------------------------------------------------------
-- The copy functions
-- ---------------------------------------------------------------------------

/-- `strdup`. -/
def strdup (_ : Text) : Alloc Ptr := do
  return some (← malloc)

/-- `edgex_strings_dup`. -/
def edgexStringsDup : Strings → Alloc (List StringsNode)
  | [] => return []
  | strs :: next => do
    let copy ← malloc
    let str ← strdup strs
    let rest ← edgexStringsDup next
    return ⟨copy, str⟩ :: rest

/-- `edgex_nvpairs_dup`. -/
def edgexNvpairsDup : NvPairs → Alloc (List NvpairsNode)
  | [] => return []
  | p :: next => do
    let copy ← malloc
    let name ← strdup p.1
    let value ← strdup p.2
    let rest ← edgexNvpairsDup next
    return ⟨copy, name, value⟩ :: rest

/-- `propertyvalue_dup`. -/
def propertyvalueDup (pv : PropertyValue) : Alloc PropertyvalueBlocks := do
  let result ← malloc
  let minimum ← strdup pv.minimum
  let maximum ← strdup pv.maximum
  let defaultvalue ← strdup pv.defaultvalue
  let lsb ← strdup pv.lsb
  let assertion ← strdup pv.assertion
  let precision ← strdup pv.precision
  let mediaType ← strdup pv.mediaType
  return ⟨result, minimum, maximum, defaultvalue, lsb, assertion, precision, mediaType⟩

/-- `units_dup`. -/
def unitsDup (u : Units) : Alloc UnitsBlocks := do
  let result ← malloc
  let type ← strdup u.type
  let readwrite ← strdup u.readwrite
  let defaultvalue ← strdup u.defaultvalue
  return ⟨result, type, readwrite, defaultvalue⟩

/-- `profileproperty_dup`. -/
def profilepropertyDup (pp : ProfileProperty) : Alloc ProfilepropertyBlocks := do
  let result ← malloc
  let value ← propertyvalueDup pp.value
  let units ← unitsDup pp.units
  return ⟨result, value, units⟩

/-- `edgex_deviceresource_dup`. -/
def edgexDeviceresourceDup : List DeviceResource → Alloc (List DeviceresourceNode)
  | [] => return []
  | e :: next => do
    let result ← malloc
    let name ← strdup e.name
    let description ← strdup e.description
    let tag ← strdup e.tag
    let properties ← profilepropertyDup e.properties
    let attributes ← edgexNvpairsDup e.attributes
    let rest ← edgexDeviceresourceDup next
    return ⟨result, name, description, tag, properties, attributes⟩ :: rest

/-- `resourceoperation_dup`. -/
def resourceoperationDup : List ResourceOperation → Alloc (List ResourceoperationNode)
  | [] => return []
  | ro :: next => do
    let result ← malloc
    let index ← strdup ro.index
    let operation ← strdup ro.operation
    let object ← strdup ro.object
    let property ← strdup ro.property
    let parameter ← strdup ro.parameter
    let resource ← strdup ro.resource
    let secondary ← edgexStringsDup ro.secondary
    let mappings ← edgexNvpairsDup ro.mappings
    let rest ← resourceoperationDup next
    return ⟨result, index, operation, object, property, parameter, resource, secondary,
      mappings⟩ :: rest

/-- `devicecommand_dup`. -/
def devicecommandDup : List DeviceCommand → Alloc (List DevicecommandNode)
  | [] => return []
  | pr :: next => do
    let result ← malloc
    let name ← strdup pr.name
    let set ← resourceoperationDup pr.set
    let get ← resourceoperationDup pr.get
    let rest ← devicecommandDup next
    return ⟨result, name, set, get⟩ :: rest

/-- `edgex_deviceprofile_dup`. The list of the copy ends with it, and it has no table of commands. -/
def edgexDeviceprofileDup : Option DeviceProfile → Alloc (List DeviceprofileNode)
  | none => return []
  | some src => do
    let dest ← malloc
    let id ← strdup src.id
    let name ← strdup src.name
    let description ← strdup src.description
    let manufacturer ← strdup src.manufacturer
    let model ← strdup src.model
    let labels ← edgexStringsDup src.labels
    let deviceResources ← edgexDeviceresourceDup src.deviceResources
    let deviceCommands ← devicecommandDup src.deviceCommands
    return [⟨dest, id, name, description, manufacturer, model, labels, deviceResources,
      deviceCommands, []⟩]

/-- `autoevents_dup`. -/
def autoeventsDup : List AutoEvent → Alloc (List AutoeventsNode)
  | [] => return []
  | e :: next => do
    let result ← malloc
    let resource ← strdup e.resource
    let frequency ← strdup e.frequency
    let rest ← autoeventsDup next
    return ⟨result, resource, frequency⟩ :: rest

/-- `edgex_protocols_dup`, with what was copied so far. -/
def edgexProtocolsDupFrom (result : List ProtocolsNode) :
    List Protocol → Alloc (List ProtocolsNode)
  | [] => return result
  | p :: next => do
    let newprot ← malloc
    let name ← strdup p.name
    let properties ← edgexNvpairsDup p.properties
    edgexProtocolsDupFrom (⟨newprot, name, properties⟩ :: result) next

/-- `edgex_addressable_dup`. -/
def edgexAddressableDup : Option Addressable → Alloc (Option AddressableBlocks)
  | none => return none
  | some addr => do
    let result ← malloc
    let name ← strdup addr.name
    let id ← strdup addr.id
    let address ← strdup addr.address
    let method ← strdup addr.method
    let path ← strdup addr.path
    let protocol ← strdup addr.protocol
    let user ← strdup addr.user
    let password ← strdup addr.password
    let topic ← strdup addr.topic
    let publisher ← strdup addr.publisher
    return some ⟨result, address, id, name, method, password, path, protocol, publisher, topic, user⟩

/-- `edgex_deviceservice_dup`. -/
def edgexDeviceserviceDup : Option DeviceService → Alloc DeviceserviceBlocks
  | none => ofChecked (.error .nullPointer)
  | some e => do
    let res ← malloc
    let name ← strdup e.name
    let id ← strdup e.id
    let description ← strdup e.description
    let labels ← edgexStringsDup e.labels
    let addressable ← edgexAddressableDup e.addressable
    return ⟨res, addressable, description, id, labels, name⟩

/-- `edgex_device_dup`. -/
def edgexDeviceDup (e : Device) : Alloc DeviceNode := do
  let result ← malloc
  let name ← strdup e.name
  let id ← strdup e.id
  let description ← strdup e.description
  let labels ← edgexStringsDup e.labels
  let protocols ← edgexProtocolsDupFrom [] e.protocols
  let autos ← autoeventsDup e.autos
  let service ← edgexDeviceserviceDup e.service
  let profile ← edgexDeviceprofileDup e.profile
  return ⟨result, protocols, autos, description, id, labels, name, profile, some service⟩

/-- The loop of `edgex_devmap_copydevices` over the devices of the map: each copy is put in front of
those made so far. -/
def edgexDevmapCopydevices (result : List DeviceNode) : List Device → Alloc (List DeviceNode)
  | [] => return result
  | dev :: devices => do
    let dup ← edgexDeviceDup dev
    edgexDevmapCopydevices (dup :: result) devices

-- ---------------------------------------------------------------------------
-- The blocks of a record
-- ---------------------------------------------------------------------------

def stringsBlocks : List StringsNode → Multiset Nat
  | [] => 0
  | strs :: next => block strs.str + ({strs.addr} + stringsBlocks next)

def nvpairsBlocks : List NvpairsNode → Multiset Nat
  | [] => 0
  | p :: next => block p.name + (block p.value + ({p.addr} + nvpairsBlocks next))

def PropertyvalueBlocks.blocks (e : PropertyvalueBlocks) : Multiset Nat :=
  block e.minimum + (block e.maximum + (block e.defaultvalue + (block e.lsb +
    (block e.assertion + (block e.precision + (block e.mediaType + {e.addr}))))))

def UnitsBlocks.blocks (e : UnitsBlocks) : Multiset Nat :=
  block e.type + (block e.readwrite + (block e.defaultvalue + {e.addr}))

def ProfilepropertyBlocks.blocks (e : ProfilepropertyBlocks) : Multiset Nat :=
  e.value.blocks + (e.units.blocks + {e.addr})

def deviceresourceBlocks : List DeviceresourceNode → Multiset Nat
  | [] => 0
  | e :: next => block e.name + (block e.description + (block e.tag + (e.properties.blocks +
      (nvpairsBlocks e.attributes + ({e.addr} + deviceresourceBlocks next)))))

def resourceoperationBlocks : List ResourceoperationNode → Multiset Nat
  | [] => 0
  | e :: next => block e.index + (block e.operation + (block e.object + (block e.property +
      (block e.parameter + (block e.resource + (stringsBlocks e.secondary +
        (nvpairsBlocks e.mappings + ({e.addr} + resourceoperationBlocks next))))))))

def devicecommandBlocks : List DevicecommandNode → Multiset Nat
  | [] => 0
  | e :: next => block e.name + (resourceoperationBlocks e.set +
      (resourceoperationBlocks e.get + ({e.addr} + devicecommandBlocks next)))

def cmdinfoBlocks : List CmdinfoNode → Multiset Nat
  | [] => 0
  | inf :: next =>
    cmdinfoBlocks next + (block inf.reqs + (block inf.pvals + (block inf.maps + {inf.addr})))

def deviceprofileBlocks : List DeviceprofileNode → Multiset Nat
  | [] => 0
  | e :: next => block e.id + (block e.name + (block e.description + (block e.manufacturer +
      (block e.model + (stringsBlocks e.labels + (deviceresourceBlocks e.deviceResources +
        (devicecommandBlocks e.deviceCommands + (cmdinfoBlocks e.cmdinfo +
          ({e.addr} + deviceprofileBlocks next)))))))))

def autoeventsBlocks : List AutoeventsNode → Multiset Nat
  | [] => 0
  | e :: next => block e.resource + (block e.frequency + (autoeventsBlocks next + {e.addr}))

def protocolsBlocks : List ProtocolsNode → Multiset Nat
  | [] => 0
  | e :: next => block e.name + (nvpairsBlocks e.properties + (protocolsBlocks next + {e.addr}))

def addressableBlocks : Option AddressableBlocks → Multiset Nat
  | none => 0
  | some e => block e.address + (block e.id + (block e.name + (block e.method + (block e.password +
      (block e.path + (block e.protocol + (block e.publisher + (block e.topic + (block e.user +
        {e.addr})))))))))

def deviceserviceBlocks : Option DeviceserviceBlocks → Multiset Nat
  | none => 0
  | some e => addressableBlocks e.addressable + (block e.description + (block e.id +
      (stringsBlocks e.labels + (block e.name + {e.addr}))))

def deviceBlocks : List DeviceNode → Multiset Nat
  | [] => 0
  | e :: next => protocolsBlocks e.protocols + (autoeventsBlocks e.autos + (block e.description +
      (block e.id + (stringsBlocks e.labels + (block e.name + (deviceprofileBlocks e.profile +
        (deviceserviceBlocks e.service + ({e.addr} + deviceBlocks next))))))))

end Memory

end Zigbee
