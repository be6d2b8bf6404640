-- SUMMARY: The device map: devices by id, ids by name, and the profiles that the devices share.
import ZigbeeService.Lib.HashMap
import ZigbeeService.Lib.Store
import ZigbeeService.Sdk.CmdInfo

/-!
# The device map

`devmap.c`. Devices and profiles are objects with addresses; the maps hold addresses, and
`name_to_id` holds a pointer to the `id` of a device, which is followed when a name is looked up. A
call runs here from the point where it has the lock to the point where it gives it back. The timers
of automatic events are not part of the map and left out.
-/

namespace Zigbee

open CLib

/-! ## The data -/

/-- `edgex_hash`. A plain `char` is signed. -/
def edgexHash (str : Text) : UInt32 :=
  str.foldl (fun hash c => ((hash <<< 5) + hash) ^^^ c.toInt8.toInt32.toUInt32) 5381

/-- `edgex_map`. -/
abbrev EdgexMap (α : Type) := HashMap edgexHash α

/-- An `edgex_device` of the map. Its count of references does not wrap. -/
structure DeviceObject extends DeviceInfo where
  profile : ObjAddr
  refs : Nat

/-- `edgex_devmap_t`, with the objects its pointers lead to. -/
structure Devmap where
  devices : EdgexMap ObjAddr
  nameToId : EdgexMap ObjAddr
  profiles : EdgexMap ObjAddr
  objects : Store DeviceObject
  profileObjects : Store DeviceProfile

/-- `edgex_devmap_alloc`. -/
def Devmap.alloc : Devmap where
  devices := .init _ _
  nameToId := .init _ _
  profiles := .init _ _
  objects := .empty
  profileObjects := .empty

/-! ## Copies and comparisons -/

/-- `edgex_protocols_dup`: each copy goes in front of those before it. -/
def edgexProtocolsDup (e : List Protocol) : List Protocol :=
  e.foldl (fun result p => p :: result) []

/-- `edgex_deviceprofile_dup`: the table of commands is not copied. -/
def edgexDeviceprofileDup (src : DeviceProfile) : DeviceProfile := { src with cmdinfo := [] }

/-- `edgex_device_dup`. -/
def edgexDeviceDup (e : Device) : Checked Device :=
  match e.service with
  | none => .error .nullPointer
  | some service =>
    .ok { e with
      protocols := edgexProtocolsDup e.protocols
      service := some service
      profile := e.profile.map edgexDeviceprofileDup }

/-- `LIST_EQUAL_FUNCTION`: as many elements, and to each of the first list the first element of the
second with its name compares equal. The elements are counted in an `unsigned`. -/
def listEqual {α : Type} (name : α → Text) (cmp : α → α → Bool) (l₁ l₂ : List α) : Bool :=
  UInt32.ofNat l₁.length = UInt32.ofNat l₂.length ∧ l₁.all fun l =>
    match l₂.find? fun found => name l = name found with
    | none => false
    | some found => cmp l found

/-- `edgex_nvpairs_equal`. -/
def edgexNvpairsEqual (l₁ l₂ : NvPairs) : Bool := listEqual Prod.fst (fun p q => p.2 = q.2) l₁ l₂

/-- `edgex_protocols_equal`. -/
def edgexProtocolsEqual (l₁ l₂ : List Protocol) : Bool :=
  listEqual Protocol.name (fun p q => edgexNvpairsEqual p.properties q.properties) l₁ l₂

/-- `edgex_device_autoevents_equal`. -/
def edgexDeviceAutoeventsEqual (l₁ l₂ : List AutoEvent) : Bool :=
  listEqual AutoEvent.resource (fun e f => e.frequency = f.frequency ∧ e.onChange = f.onChange) l₁ l₂

/-- `edgex_device_autoevent_start`, as far as the profile is concerned: the command of every event is
looked up. -/
def edgexDeviceAutoeventStart (prof : DeviceProfile) : List AutoEvent → Checked DeviceProfile
  | [] => return prof
  | ae :: autos => do
    let (_, prof) ← edgexDeviceprofileFindcommand ae.resource prof true
    edgexDeviceAutoeventStart prof autos

/-! ## Adding and removing -/

namespace Devmap

/-- The profile registered under the name of `profile`, or else `profile` itself, registered now. -/
def shareProfile (map : Devmap) (profile : DeviceProfile) : ObjAddr × Devmap :=
  match map.profiles.get profile.name with
  | some pp => (pp, map)
  | none =>
    (map.profileObjects.size,
      { map with
        profiles := map.profiles.set profile.name map.profileObjects.size
        profileObjects := map.profileObjects.alloc profile })

/-- `add_locked`. -/
def addLocked (map : Devmap) (newdev : Device) : Checked Devmap := do
  let dup ← edgexDeviceDup newdev
  match dup.profile with
  | none => .error .nullPointer
  | some profile =>
    let (pp, map) := map.shareProfile profile
    let prof ← map.profileObjects.read pp
    let prof ← edgexDeviceAutoeventStart prof dup.autos
    return { map with
      devices := map.devices.set dup.id map.objects.size
      nameToId := map.nameToId.set dup.name map.objects.size
      objects := map.objects.alloc { dup.toDeviceInfo with profile := pp, refs := 1 }
      profileObjects := map.profileObjects.write pp prof }

/-- `edgex_device_release`. -/
def release (map : Devmap) (dev : ObjAddr) : Checked Devmap := do
  let d ← map.objects.read dev
  if d.refs = 1 then return { map with objects := map.objects.free dev }
  else return { map with objects := map.objects.write dev { d with refs := d.refs - 1 } }

/-- `remove_locked`. -/
def removeLocked (map : Devmap) (olddev : ObjAddr) : Checked Devmap := do
  let d ← map.objects.read olddev
  release
    { map with nameToId := map.nameToId.remove d.name, devices := map.devices.remove d.id } olddev

/-- The comparisons of `update_in_place`. -/
def inPlace (dest : DeviceObject) (profile : DeviceProfile) (src : Device)
    (srcProfile : DeviceProfile) : Bool :=
  dest.name = src.name ∧ profile.name = srcProfile.name ∧
    edgexDeviceAutoeventsEqual dest.autos src.autos ∧ edgexProtocolsEqual dest.protocols src.protocols

/-- The assignments of `update_in_place`. -/
def updated (dest : DeviceObject) (src : Device) : DeviceObject :=
  { dest with
    adminState := src.adminState
    operatingState := src.operatingState
    created := src.created
    lastConnected := src.lastConnected
    lastReported := src.lastReported
    modified := src.modified
    origin := src.origin
    description := src.description
    labels := src.labels }

/-- `update_in_place`. The profiles are only followed when the names agree. -/
def updateInPlace (map : Devmap) (dest : ObjAddr) (src : Device) : Checked (Bool × Devmap) := do
  let d ← map.objects.read dest
  if d.name ≠ src.name then return (false, map)
  else
    let profile ← map.profileObjects.read d.profile
    match src.profile with
    | none => .error .nullPointer
    | some srcProfile =>
      if inPlace d profile src srcProfile then
        return (true, { map with objects := map.objects.write dest (updated d src) })
      else return (false, map)

/-! ## The calls -/

/-- The loop of `edgex_devmap_populate_devices`. -/
def populateDevice (map : Devmap) (d : Device) : Checked Devmap :=
  if (map.nameToId.get d.name).isSome then return map else map.addLocked d

/-- `edgex_devmap_populate_devices`. -/
def populateDevices (map : Devmap) : List Device → Checked Devmap
  | [] => return map
  | d :: devs => do
    let map ← map.populateDevice d
    map.populateDevices devs

/-- `edgex_devmap_replace_device` up to the point where the new device is added: whether that is
still to do. -/
def replaceOld (map : Devmap) (dev : Device) : Checked (Bool × Devmap) :=
  match map.devices.get dev.id with
  | none => return (true, map)
  | some olddev => do
    let (done, map) ← map.updateInPlace olddev dev
    if done then return (false, map)
    else
      let map ← map.removeLocked olddev
      return (true, map)

/-- `edgex_devmap_replace_device`. -/
def replaceDevice (map : Devmap) (dev : Device) : Checked Devmap := do
  let (add, map) ← map.replaceOld dev
  if add then map.addLocked dev else return map

/-- `atomic_fetch_add (&dev->refs, 1)`. -/
def retain (map : Devmap) (dev : ObjAddr) : Checked Devmap := do
  let d ← map.objects.read dev
  return { map with objects := map.objects.write dev { d with refs := d.refs + 1 } }

/-- `edgex_devmap_device_byid`. -/
def deviceByid (map : Devmap) (id : Text) : Checked (Option ObjAddr × Devmap) :=
  match map.devices.get id with
  | none => return (none, map)
  | some dev => do
    let map ← map.retain dev
    return (some dev, map)

/-- The device that a name leads to: through the pointer to its id. -/
def findByname (map : Devmap) (name : Text) : Checked (Option ObjAddr) :=
  match map.nameToId.get name with
  | none => return none
  | some id => do
    let d ← map.objects.read id
    match map.devices.get d.id with
    | none => .error .nullPointer
    | some dev => return some dev

/-- `edgex_devmap_device_byname`. -/
def deviceByname (map : Devmap) (name : Text) : Checked (Option ObjAddr × Devmap) := do
  match ← map.findByname name with
  | none => return (none, map)
  | some dev =>
    let map ← map.retain dev
    return (some dev, map)

/-- `edgex_devmap_removedevice_byname`. -/
def removedeviceByname (map : Devmap) (name : Text) : Checked Devmap := do
  match ← map.findByname name with
  | none => return map
  | some olddev => map.removeLocked olddev

/-- `edgex_devmap_removedevice_byid`. -/
def removedeviceByid (map : Devmap) (id : Text) : Checked Devmap :=
  match map.devices.get id with
  | none => .error .nullPointer
  | some olddev => map.removeLocked olddev

/-- A call that changes the map. -/
inductive Call where
  | populate (devs : List Device)
  | replace (dev : Device)
  | removeByname (name : Text)
  | removeByid (id : Text)

/-- The map after a call. -/
def call (map : Devmap) : Call → Checked Devmap
  | .populate devs => map.populateDevices devs
  | .replace dev => map.replaceDevice dev
  | .removeByname name => map.removedeviceByname name
  | .removeByid id => map.removedeviceByid id

/-! ## Walks -/

/-- Where a walk over the devices stands. -/
abbrev Iter := HashMap.Cursor Text ObjAddr

/-- The test of `edgex_devmap_device_forcmd`: the command of a device that is enabled and unlocked. -/
def findCommand (map : Devmap) (cmd : Text) (forGet : Bool) (dev : ObjAddr) :
    Checked (Option CmdInfo × Devmap) := do
  let d ← map.objects.read dev
  if d.operatingState = .enabled ∧ d.adminState = .unlocked then
    let prof ← map.profileObjects.read d.profile
    let (command, prof) ← edgexDeviceprofileFindcommand cmd prof forGet
    return (command, { map with profileObjects := map.profileObjects.write d.profile prof })
  else return (none, map)

/-- One round of the loop of `edgex_devmap_device_forcmd`: how far the walk has come, and what goes
to the front of the queue. -/
def forcmdRound (map : Devmap) (cmd : Text) (forGet : Bool) (iter : Iter) :
    Checked (Option (Iter × Option (ObjAddr × CmdInfo)) × Devmap) :=
  match map.devices.next iter with
  | none => return (none, map)
  | some (key, iter) =>
    match map.devices.get key with
    | none => .error .nullPointer
    | some dev => do
      let (command, map) ← map.findCommand cmd forGet dev
      match command with
      | none => return (some (iter, none), map)
      | some command =>
        let map ← map.retain dev
        return (some (iter, some (dev, command)), map)

/-- One round of the loop of `edgex_devmap_clear`: the walk moves on before the entry goes. -/
def clearRound (map : Devmap) (key : Text) (iter : Iter) :
    Checked (Option (Text × Iter) × Devmap) :=
  match map.devices.get key with
  | none => .error .nullPointer
  | some e => do
    let map ← map.release e
    return (map.devices.next iter, { map with devices := map.devices.remove key })

end Devmap

end Zigbee
