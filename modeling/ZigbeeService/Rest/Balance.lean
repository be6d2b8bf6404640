-- SUMMARY: Copies of devices and their release: every block of a copy is new, and is freed once (edgex-rest.c).
import ZigbeeService.Rest.Blocks
import ZigbeeService.Rest.DeviceRoundTrip

/-!
# The balance of copies

Each copy function makes the blocks of its result, and each free function frees the blocks of its
argument, reading no block that was freed before. The statements follow the structures from the
inside out.
-/

namespace Zigbee

namespace Memory

open CLib CLib.Alloc

-- ---------------------------------------------------------------------------
-- Frees
-- ---------------------------------------------------------------------------

theorem frees_strings : ∀ strs : List StringsNode, Frees (edgexStringsFree strs) (stringsBlocks strs)
  | [] => frees_pure
  | strs :: next => by
    refine .field (frees_free strs.str) (by simp) ?_
    exact .load (by simp) ((frees_free (some strs.addr)).bind (frees_strings next))

theorem frees_nvpairs : ∀ p : List NvpairsNode, Frees (edgexNvpairsFree p) (nvpairsBlocks p)
  | [] => frees_pure
  | p :: next => by
    refine .field (frees_free p.name) (by simp) ?_
    refine .field (frees_free p.value) (by simp) ?_
    exact .load (by simp) ((frees_free (some p.addr)).bind (frees_nvpairs next))

theorem frees_propertyvalue (e : PropertyvalueBlocks) : Frees (propertyvalueFree e) e.blocks := by
  refine .field (frees_free e.minimum) (by simp) ?_
  refine .field (frees_free e.maximum) (by simp) ?_
  refine .field (frees_free e.defaultvalue) (by simp) ?_
  refine .field (frees_free e.lsb) (by simp) ?_
  refine .field (frees_free e.assertion) (by simp) ?_
  refine .field (frees_free e.precision) (by simp) ?_
  refine .field (frees_free e.mediaType) (by simp) ?_
  exact frees_free (some e.addr)

theorem frees_units (e : UnitsBlocks) : Frees (unitsFree e) e.blocks := by
  refine .field (frees_free e.type) (by simp) ?_
  refine .field (frees_free e.readwrite) (by simp) ?_
  refine .field (frees_free e.defaultvalue) (by simp) ?_
  exact frees_free (some e.addr)

theorem frees_profileproperty (e : ProfilepropertyBlocks) :
    Frees (profilepropertyFree e) e.blocks := by
  refine .field (frees_propertyvalue e.value) (by simp) ?_
  refine .field (frees_units e.units) (by simp) ?_
  exact frees_free (some e.addr)

theorem frees_deviceresource :
    ∀ e : List DeviceresourceNode, Frees (deviceresourceFree e) (deviceresourceBlocks e)
  | [] => frees_pure
  | e :: next => by
    refine .field (frees_free e.name) (by simp) ?_
    refine .field (frees_free e.description) (by simp) ?_
    refine .field (frees_free e.tag) (by simp) ?_
    refine .field (frees_profileproperty e.properties) (by simp) ?_
    refine .field (frees_nvpairs e.attributes) (by simp) ?_
    exact .load (by simp) ((frees_free (some e.addr)).bind (frees_deviceresource next))

theorem frees_resourceoperation :
    ∀ e : List ResourceoperationNode, Frees (resourceoperationFree e) (resourceoperationBlocks e)
  | [] => frees_pure
  | e :: next => by
    refine .field (frees_free e.index) (by simp) ?_
    refine .field (frees_free e.operation) (by simp) ?_
    refine .field (frees_free e.object) (by simp) ?_
    refine .field (frees_free e.property) (by simp) ?_
    refine .field (frees_free e.parameter) (by simp) ?_
    refine .field (frees_free e.resource) (by simp) ?_
    refine .field (frees_strings e.secondary) (by simp) ?_
    refine .field (frees_nvpairs e.mappings) (by simp) ?_
    exact .load (by simp) ((frees_free (some e.addr)).bind (frees_resourceoperation next))

theorem frees_devicecommand :
    ∀ e : List DevicecommandNode, Frees (devicecommandFree e) (devicecommandBlocks e)
  | [] => frees_pure
  | e :: next => by
    refine .field (frees_free e.name) (by simp) ?_
    refine .field (frees_resourceoperation e.set) (by simp) ?_
    refine .field (frees_resourceoperation e.get) (by simp) ?_
    exact .load (by simp) ((frees_free (some e.addr)).bind (frees_devicecommand next))

/-- The rest of the list is freed before the node. -/
theorem frees_cmdinfo : ∀ inf : List CmdinfoNode, Frees (cmdinfoFree inf) (cmdinfoBlocks inf)
  | [] => frees_pure
  | inf :: next => by
    refine .load (by simp [cmdinfoBlocks]) ((frees_cmdinfo next).bind ?_)
    refine .field (frees_free inf.reqs) (by simp) ?_
    refine .field (frees_free inf.pvals) (by simp) ?_
    refine .field (frees_free inf.maps) (by simp) ?_
    exact frees_free (some inf.addr)

theorem frees_deviceprofile :
    ∀ e : List DeviceprofileNode, Frees (edgexDeviceprofileFree e) (deviceprofileBlocks e)
  | [] => frees_pure
  | e :: next => by
    refine .load (by simp [deviceprofileBlocks]) ?_
    refine .field (frees_free e.id) (by simp) ?_
    refine .field (frees_free e.name) (by simp) ?_
    refine .field (frees_free e.description) (by simp) ?_
    refine .field (frees_free e.manufacturer) (by simp) ?_
    refine .field (frees_free e.model) (by simp) ?_
    refine .field (frees_strings e.labels) (by simp) ?_
    refine .field (frees_deviceresource e.deviceResources) (by simp) ?_
    refine .field (frees_devicecommand e.deviceCommands) (by simp) ?_
    refine .field (frees_cmdinfo e.cmdinfo) (by simp) ?_
    exact (frees_free (some e.addr)).bind (frees_deviceprofile next)

theorem frees_autoevents :
    ∀ e : List AutoeventsNode, Frees (edgexDeviceAutoeventsFree e) (autoeventsBlocks e)
  | [] => frees_pure
  | e :: next => by
    refine .field (frees_free e.resource) (by simp) ?_
    refine .field (frees_free e.frequency) (by simp) ?_
    exact .load (by simp) ((frees_autoevents next).bind (frees_free (some e.addr)))

theorem frees_protocols : ∀ e : List ProtocolsNode, Frees (edgexProtocolsFree e) (protocolsBlocks e)
  | [] => frees_pure
  | e :: next => by
    refine .field (frees_free e.name) (by simp) ?_
    refine .field (frees_nvpairs e.properties) (by simp) ?_
    exact .load (by simp) ((frees_protocols next).bind (frees_free (some e.addr)))

theorem frees_addressable :
    ∀ e : Option AddressableBlocks, Frees (edgexAddressableFree e) (addressableBlocks e)
  | none => frees_pure
  | some e => by
    refine .field (frees_free e.address) (by simp) ?_
    refine .field (frees_free e.id) (by simp) ?_
    refine .field (frees_free e.name) (by simp) ?_
    refine .field (frees_free e.method) (by simp) ?_
    refine .field (frees_free e.password) (by simp) ?_
    refine .field (frees_free e.path) (by simp) ?_
    refine .field (frees_free e.protocol) (by simp) ?_
    refine .field (frees_free e.publisher) (by simp) ?_
    refine .field (frees_free e.topic) (by simp) ?_
    refine .field (frees_free e.user) (by simp) ?_
    exact frees_free (some e.addr)

theorem frees_deviceservice :
    ∀ e : Option DeviceserviceBlocks, Frees (edgexDeviceserviceFree e) (deviceserviceBlocks e)
  | none => frees_pure
  | some e => by
    refine .field (frees_addressable e.addressable) (by simp) ?_
    refine .field (frees_free e.description) (by simp) ?_
    refine .field (frees_free e.id) (by simp) ?_
    refine .field (frees_strings e.labels) (by simp) ?_
    refine .field (frees_free e.name) (by simp) ?_
    exact frees_free (some e.addr)

theorem frees_device : ∀ e : List DeviceNode, Frees (edgexDeviceFree e) (deviceBlocks e)
  | [] => frees_pure
  | e :: next => by
    refine .field (frees_protocols e.protocols) (by simp) ?_
    refine .field (frees_autoevents e.autos) (by simp) ?_
    refine .field (frees_free e.description) (by simp) ?_
    refine .field (frees_free e.id) (by simp) ?_
    refine .field (frees_strings e.labels) (by simp) ?_
    refine .field (frees_free e.name) (by simp) ?_
    refine .field (frees_deviceprofile e.profile) (by simp) ?_
    refine .field (frees_deviceservice e.service) (by simp) ?_
    exact .load (by simp) ((frees_free (some e.addr)).bind (frees_device next))

-- ---------------------------------------------------------------------------
-- Copies
-- ---------------------------------------------------------------------------

theorem makes_strdup (s : Text) : Makes (strdup s) block :=
  makes_malloc.bind fun _ => .pure (add_zero _)

theorem makes_strings : ∀ strs : Strings, Makes (edgexStringsDup strs) stringsBlocks
  | [] => .pure rfl
  | strs :: next => by
    refine makes_malloc.bind fun copy => ?_
    refine (makes_strdup strs).bind fun str => ?_
    refine (makes_strings next).bind fun rest => .pure ?_
    simp only [stringsBlocks]
    abel

theorem makes_nvpairs : ∀ p : NvPairs, Makes (edgexNvpairsDup p) nvpairsBlocks
  | [] => .pure rfl
  | p :: next => by
    refine makes_malloc.bind fun copy => ?_
    refine (makes_strdup p.1).bind fun name => ?_
    refine (makes_strdup p.2).bind fun value => ?_
    refine (makes_nvpairs next).bind fun rest => .pure ?_
    simp only [nvpairsBlocks]
    abel

theorem makes_propertyvalue (pv : PropertyValue) :
    Makes (propertyvalueDup pv) PropertyvalueBlocks.blocks := by
  refine makes_malloc.bind fun result => ?_
  refine (makes_strdup pv.minimum).bind fun minimum => ?_
  refine (makes_strdup pv.maximum).bind fun maximum => ?_
  refine (makes_strdup pv.defaultvalue).bind fun defaultvalue => ?_
  refine (makes_strdup pv.lsb).bind fun lsb => ?_
  refine (makes_strdup pv.assertion).bind fun assertion => ?_
  refine (makes_strdup pv.precision).bind fun precision => ?_
  refine (makes_strdup pv.mediaType).bind fun mediaType => .pure ?_
  simp only [PropertyvalueBlocks.blocks]
  abel

theorem makes_units (u : Units) : Makes (unitsDup u) UnitsBlocks.blocks := by
  refine makes_malloc.bind fun result => ?_
  refine (makes_strdup u.type).bind fun type => ?_
  refine (makes_strdup u.readwrite).bind fun readwrite => ?_
  refine (makes_strdup u.defaultvalue).bind fun defaultvalue => .pure ?_
  simp only [UnitsBlocks.blocks]
  abel

theorem makes_profileproperty (pp : ProfileProperty) :
    Makes (profilepropertyDup pp) ProfilepropertyBlocks.blocks := by
  refine makes_malloc.bind fun result => ?_
  refine (makes_propertyvalue pp.value).bind fun value => ?_
  refine (makes_units pp.units).bind fun units => .pure ?_
  simp only [ProfilepropertyBlocks.blocks]
  abel

theorem makes_deviceresource :
    ∀ e : List DeviceResource, Makes (edgexDeviceresourceDup e) deviceresourceBlocks
  | [] => .pure rfl
  | e :: next => by
    refine makes_malloc.bind fun result => ?_
    refine (makes_strdup e.name).bind fun name => ?_
    refine (makes_strdup e.description).bind fun description => ?_
    refine (makes_strdup e.tag).bind fun tag => ?_
    refine (makes_profileproperty e.properties).bind fun properties => ?_
    refine (makes_nvpairs e.attributes).bind fun attributes => ?_
    refine (makes_deviceresource next).bind fun rest => .pure ?_
    simp only [deviceresourceBlocks]
    abel

theorem makes_resourceoperation :
    ∀ ro : List ResourceOperation, Makes (resourceoperationDup ro) resourceoperationBlocks
  | [] => .pure rfl
  | ro :: next => by
    refine makes_malloc.bind fun result => ?_
    refine (makes_strdup ro.index).bind fun index => ?_
    refine (makes_strdup ro.operation).bind fun operation => ?_
    refine (makes_strdup ro.object).bind fun object => ?_
    refine (makes_strdup ro.property).bind fun property => ?_
    refine (makes_strdup ro.parameter).bind fun parameter => ?_
    refine (makes_strdup ro.resource).bind fun resource => ?_
    refine (makes_strings ro.secondary).bind fun secondary => ?_
    refine (makes_nvpairs ro.mappings).bind fun mappings => ?_
    refine (makes_resourceoperation next).bind fun rest => .pure ?_
    simp only [resourceoperationBlocks]
    abel

theorem makes_devicecommand :
    ∀ pr : List DeviceCommand, Makes (devicecommandDup pr) devicecommandBlocks
  | [] => .pure rfl
  | pr :: next => by
    refine makes_malloc.bind fun result => ?_
    refine (makes_strdup pr.name).bind fun name => ?_
    refine (makes_resourceoperation pr.set).bind fun set => ?_
    refine (makes_resourceoperation pr.get).bind fun get => ?_
    refine (makes_devicecommand next).bind fun rest => .pure ?_
    simp only [devicecommandBlocks]
    abel

theorem makes_deviceprofile :
    ∀ src : Option DeviceProfile, Makes (edgexDeviceprofileDup src) deviceprofileBlocks
  | none => .pure rfl
  | some src => by
    refine makes_malloc.bind fun dest => ?_
    refine (makes_strdup src.id).bind fun id => ?_
    refine (makes_strdup src.name).bind fun name => ?_
    refine (makes_strdup src.description).bind fun description => ?_
    refine (makes_strdup src.manufacturer).bind fun manufacturer => ?_
    refine (makes_strdup src.model).bind fun model => ?_
    refine (makes_strings src.labels).bind fun labels => ?_
    refine (makes_deviceresource src.deviceResources).bind fun deviceResources => ?_
    refine (makes_devicecommand src.deviceCommands).bind fun deviceCommands => .pure ?_
    simp only [deviceprofileBlocks, cmdinfoBlocks]
    abel

theorem makes_autoevents : ∀ e : List AutoEvent, Makes (autoeventsDup e) autoeventsBlocks
  | [] => .pure rfl
  | e :: next => by
    refine makes_malloc.bind fun result => ?_
    refine (makes_strdup e.resource).bind fun resource => ?_
    refine (makes_strdup e.frequency).bind fun frequency => ?_
    refine (makes_autoevents next).bind fun rest => .pure ?_
    simp only [autoeventsBlocks]
    abel

/-- The loop keeps what was copied so far. -/
theorem triple_protocols : ∀ (p : List Protocol) (result : List ProtocolsNode),
    Triple (protocolsBlocks result) (edgexProtocolsDupFrom result p)
      fun r bs => bs = protocolsBlocks r
  | [], _ => .pure rfl
  | p :: next, result => by
    refine makes_malloc.bind fun newprot => ?_
    refine (makes_strdup p.name).bind fun name => ?_
    refine (makes_nvpairs p.properties).bind fun properties => ?_
    have hblocks : nvpairsBlocks properties + (block name + ({newprot} + protocolsBlocks result)) =
        protocolsBlocks (⟨newprot, name, properties⟩ :: result) := by
      simp only [protocolsBlocks]
      abel
    rw [hblocks]
    exact triple_protocols next _

theorem makes_protocols (p : List Protocol) :
    Makes (edgexProtocolsDupFrom [] p) protocolsBlocks := triple_protocols p []

theorem makes_addressable :
    ∀ addr : Option Addressable, Makes (edgexAddressableDup addr) addressableBlocks
  | none => .pure rfl
  | some addr => by
    refine makes_malloc.bind fun result => ?_
    refine (makes_strdup addr.name).bind fun name => ?_
    refine (makes_strdup addr.id).bind fun id => ?_
    refine (makes_strdup addr.address).bind fun address => ?_
    refine (makes_strdup addr.method).bind fun method => ?_
    refine (makes_strdup addr.path).bind fun path => ?_
    refine (makes_strdup addr.protocol).bind fun protocol => ?_
    refine (makes_strdup addr.user).bind fun user => ?_
    refine (makes_strdup addr.password).bind fun password => ?_
    refine (makes_strdup addr.topic).bind fun topic => ?_
    refine (makes_strdup addr.publisher).bind fun publisher => .pure ?_
    simp only [addressableBlocks]
    abel

theorem makes_deviceservice (e : DeviceService) :
    Makes (edgexDeviceserviceDup (some e)) fun res => deviceserviceBlocks (some res) := by
  refine makes_malloc.bind fun res => ?_
  refine (makes_strdup e.name).bind fun name => ?_
  refine (makes_strdup e.id).bind fun id => ?_
  refine (makes_strdup e.description).bind fun description => ?_
  refine (makes_strings e.labels).bind fun labels => ?_
  refine (makes_addressable e.addressable).bind fun addressable => .pure ?_
  simp only [deviceserviceBlocks]
  abel

theorem makes_device {e : Device} {service : DeviceService} (h : e.service = some service) :
    Makes (edgexDeviceDup e) fun result => deviceBlocks [result] := by
  refine makes_malloc.bind fun result => ?_
  refine (makes_strdup e.name).bind fun name => ?_
  refine (makes_strdup e.id).bind fun id => ?_
  refine (makes_strdup e.description).bind fun description => ?_
  refine (makes_strings e.labels).bind fun labels => ?_
  refine (makes_protocols e.protocols).bind fun protocols => ?_
  refine (makes_autoevents e.autos).bind fun autos => ?_
  rw [h]
  refine (makes_deviceservice service).bind fun service => ?_
  refine (makes_deviceprofile e.profile).bind fun profile => .pure ?_
  simp only [deviceBlocks]
  abel

theorem deviceBlocks_cons (e : DeviceNode) (next : List DeviceNode) :
    deviceBlocks (e :: next) = deviceBlocks [e] + deviceBlocks next := by
  simp only [deviceBlocks]
  abel

theorem triple_copydevices : ∀ (devices : List Device) (result : List DeviceNode),
    (∀ dev ∈ devices, dev.service.isSome) →
      Triple (deviceBlocks result) (edgexDevmapCopydevices result devices)
        fun copies bs => bs = deviceBlocks copies ∧
          copies.length = devices.length + result.length
  | [], _, _ => .pure ⟨rfl, (Nat.zero_add _).symm⟩
  | dev :: devices, result, h => by
    rw [List.forall_mem_cons] at h
    obtain ⟨service, hservice⟩ := Option.isSome_iff_exists.mp h.1
    refine (makes_device hservice).bind fun dup => ?_
    rw [← deviceBlocks_cons]
    refine (triple_copydevices devices _ h.2).weaken ?_
    rintro copies bs ⟨hbs, hlen⟩
    refine ⟨hbs, hlen.trans ?_⟩
    simp only [List.length_cons]
    omega

end Memory

/-- `edgex_devmap_copydevices` makes new blocks for its copies and leaves the others alone. Whatever
happens in between, `edgex_device_free` frees these blocks, each once, and no other; it reads none
that it freed. -/
theorem edgexDevmapCopydevices_balance (devices : List Device) (s : CLib.Heap)
    (h : ∀ dev ∈ devices, dev.service.isSome) :
    ∃ copies s', Memory.edgexDevmapCopydevices [] devices s = .ok (copies, s') ∧
      copies.length = devices.length ∧ s'.live = Memory.deviceBlocks copies + s.live ∧
      ∀ (t : CLib.Heap) (others : Multiset Nat), t.live = Memory.deviceBlocks copies + others →
        ∃ t', Memory.edgexDeviceFree copies t = .ok ((), t') ∧ t'.live = others := by
  obtain ⟨copies, bs, s', hrun, ⟨rfl, hlen⟩, hlive⟩ :=
    Memory.triple_copydevices devices [] h s s.live (zero_add _).symm
  refine ⟨copies, s', hrun, hlen, hlive, fun t others ht => ?_⟩
  obtain ⟨r, bs, t', hfree, rfl, hrest⟩ := Memory.frees_device copies t others ht
  exact ⟨t', hfree, hrest.trans (zero_add _)⟩

theorem lampDevices_balance :
    ∃ copies s', Memory.edgexDevmapCopydevices [] [lampDevice [], lampDevice []] .empty =
        .ok (copies, s') ∧
      copies.length = 2 ∧ s'.live = Memory.deviceBlocks copies + 0 ∧
      ∀ (t : CLib.Heap) (others : Multiset Nat), t.live = Memory.deviceBlocks copies + others →
        ∃ t', Memory.edgexDeviceFree copies t = .ok ((), t') ∧ t'.live = others :=
  edgexDevmapCopydevices_balance [lampDevice [], lampDevice []] .empty
    (by simp only [List.forall_mem_cons]; exact ⟨rfl, rfl, List.forall_mem_nil _⟩)

end Zigbee
