-- SUMMARY: Devices that are read and freed: exactly the names of resources that do not parse are leaked (edgex-rest.c).
import ZigbeeService.Rest.ReadBlocks

/-!
# The balance of readers

A reader makes the blocks of its result. `deviceresource_read` alone makes one more where it fails:
the name, which it copies before it looks at the property.
-/

namespace Zigbee

namespace Memory

open CLib CLib.Alloc

/-- These blocks, and so many that nothing points to. -/
def Leaks (blocks : Multiset Nat) (n : Nat) (bs : Multiset Nat) : Prop :=
  ∃ lost : Multiset Nat, bs = blocks + lost ∧ lost.card = n

theorem Leaks.none (blocks : Multiset Nat) : Leaks blocks 0 blocks :=
  ⟨0, (add_zero blocks).symm, rfl⟩

-- ---------------------------------------------------------------------------
-- Strings and pairs
-- ---------------------------------------------------------------------------

theorem makes_getString (obj : Option Members) (name : Text) : Makes (getString obj name) block :=
  makes_strdup _

theorem makes_stringsRead : ∀ items : List Json, Makes (stringsRead items) stringsBlocks
  | [] => .pure rfl
  | item :: items => by
    refine makes_malloc.bind fun temp => ?_
    refine (makes_strdup _).bind fun str => ?_
    refine (makes_stringsRead items).bind fun rest => .pure ?_
    simp only [stringsBlocks]
    abel

theorem makes_arrayToStrings (array : Option (List Json)) :
    Makes (arrayToStrings array) stringsBlocks := makes_stringsRead _

theorem triple_nvpairsRead : ∀ (members : Members) (result : List NvpairsNode) {pairs r : NvPairs},
    members.foldlM nvpairsReadMember pairs = .ok r →
      Triple (nvpairsBlocks result) (nvpairsReadFrom result members) fun r bs => bs = nvpairsBlocks r
  | [], _, _, _, _ => .pure rfl
  | (name, value) :: members, result, pairs, r, h => by
    obtain ⟨pairs', hmember, hrest⟩ := Checked.bind_eq_ok.mp h
    rw [nvpairsReadFrom]
    refine makes_malloc.bind fun nv => ?_
    refine (makes_strdup name).bind fun name => ?_
    cases hvalue : jsonValueGetString (some value) with
    | none =>
      rw [nvpairsReadMember, hvalue] at hmember
      cases hmember
    | some str =>
      refine (makes_strdup str).bind fun value => ?_
      have hblocks : block value + (block name + ({nv} + nvpairsBlocks result)) =
          nvpairsBlocks (⟨nv, name, value⟩ :: result) := by
        simp only [nvpairsBlocks]
        abel
      rw [hblocks]
      exact triple_nvpairsRead members _ hrest

theorem makes_nvpairsRead {obj : Option Members} {r : NvPairs} (h : Zigbee.nvpairsRead obj = .ok r) :
    Makes (nvpairsRead obj) nvpairsBlocks := triple_nvpairsRead _ [] h

-- ---------------------------------------------------------------------------
-- Resources
-- ---------------------------------------------------------------------------

/-- The blocks of a record that may be missing. -/
def optionBlocks {α : Type} (blocks : α → Multiset Nat) : Option α → Multiset Nat
  | none => 0
  | some e => blocks e

theorem triple_propertyvalueRead {dt : DoubleText} {obj : Option Members}
    {r : Option PropertyValue} (h : Zigbee.propertyvalueRead dt obj = .ok r) :
    Triple 0 (propertyvalueRead dt obj) fun p bs =>
      bs = optionBlocks PropertyvalueBlocks.blocks p ∧ p.isSome = r.isSome := by
  obtain ⟨pt, hpt, hr⟩ := Checked.bind_eq_ok.mp h
  cases hr
  refine triple_ofChecked hpt ?_
  cases pt with
  | none => exact .pure ⟨rfl, rfl⟩
  | some pt =>
    refine makes_malloc.bind fun result => ?_
    cases hread : propertyvalueReadAs dt obj pt with
    | none =>
      refine (frees_free (some result)).bind (.pure ⟨rfl, ?_⟩)
      rw [Option.bind_some, hread]
      rfl
    | some val =>
      refine (makes_getString obj _).bind fun minimum => ?_
      refine (makes_getString obj _).bind fun maximum => ?_
      refine (makes_getString obj _).bind fun defaultvalue => ?_
      refine (makes_getString obj _).bind fun lsb => ?_
      refine (makes_getString obj _).bind fun assertion => ?_
      refine (makes_getString obj _).bind fun precision => ?_
      refine (makes_getString obj _).bind fun mediaType => .pure ⟨?_, ?_⟩
      · simp only [optionBlocks, PropertyvalueBlocks.blocks]
        abel
      · rw [Option.bind_some, hread]
        rfl

theorem makes_unitsRead (obj : Option Members) : Makes (unitsRead obj) UnitsBlocks.blocks := by
  refine makes_malloc.bind fun result => ?_
  refine (makes_getString obj _).bind fun type => ?_
  refine (makes_getString obj _).bind fun readwrite => ?_
  refine (makes_getString obj _).bind fun defaultvalue => .pure ?_
  simp only [UnitsBlocks.blocks]
  abel

theorem triple_profilepropertyRead {dt : DoubleText} {obj : Option Members}
    {r : Option ProfileProperty} (h : Zigbee.profilepropertyRead dt obj = .ok r) :
    Triple 0 (profilepropertyRead dt obj) fun p bs =>
      bs = optionBlocks ProfilepropertyBlocks.blocks p ∧ p.isSome = r.isSome := by
  obtain ⟨val, hval, hr⟩ := Checked.bind_eq_ok.mp h
  cases hr
  refine (triple_propertyvalueRead hval).after ?_
  rintro p bs ⟨rfl, hsome⟩
  cases p with
  | none =>
    refine .pure ⟨rfl, ?_⟩
    rw [Option.isSome_map, ← hsome]
    rfl
  | some p =>
    refine makes_malloc.bind fun result => ?_
    refine (makes_unitsRead _).bind fun units => .pure ⟨?_, ?_⟩
    · simp only [optionBlocks, ProfilepropertyBlocks.blocks]
      abel
    · rw [Option.isSome_map, ← hsome]
      rfl

/-- Without a property the name is leaked. -/
theorem triple_deviceresourceRead {dt : DoubleText} {obj : Option Members}
    {r : Option DeviceResource} (h : Zigbee.deviceresourceRead dt obj = .ok r) :
    Triple 0 (deviceresourceRead dt obj) fun p bs =>
      Leaks (optionBlocks (fun e => deviceresourceBlocks [e]) p) (if r.isSome then 0 else 1) bs ∧
        p.isSome = r.isSome := by
  obtain ⟨pp, hpp, hr⟩ := Checked.bind_eq_ok.mp h
  refine (triple_profilepropertyRead hpp).after ?_
  rintro p bs ⟨rfl, hsome⟩
  cases pp with
  | none =>
    cases hr
    cases p with
    | some p => cases hsome
    | none =>
      refine makes_malloc.bind fun name => .pure ⟨⟨{name}, ?_, rfl⟩, rfl⟩
      simp [optionBlocks]
  | some pp =>
    obtain ⟨pairs, hpairs, hr⟩ := Checked.bind_eq_ok.mp hr
    cases hr
    cases p with
    | none => cases hsome
    | some p =>
      refine (makes_getString obj _).bind fun name => ?_
      refine makes_malloc.bind fun result => ?_
      refine (makes_getString obj _).bind fun description => ?_
      refine (makes_getString obj _).bind fun tag => ?_
      refine (makes_nvpairsRead hpairs).bind fun attributes => .pure ⟨⟨0, ?_, rfl⟩, rfl⟩
      simp only [optionBlocks, deviceresourceBlocks]
      abel

theorem deviceresourceBlocks_cons (e : DeviceresourceNode) (next : List DeviceresourceNode) :
    deviceresourceBlocks (e :: next) = deviceresourceBlocks [e] + deviceresourceBlocks next := by
  simp only [deviceresourceBlocks]
  abel

theorem triple_deviceresourcesRead {dt : DoubleText} : ∀ (items : List Json)
    {r : Option (List DeviceResource)}, Zigbee.deviceresourcesRead dt items = .ok r →
      Triple 0 (deviceresourcesRead dt items) fun p bs =>
        Leaks (deviceresourceBlocks p.1) (if r.isSome then 0 else 1) bs ∧ p.2 = r.isSome
  | [], r, h => by
    cases h
    exact .pure ⟨.none _, rfl⟩
  | item :: items, r, h => by
    obtain ⟨temp, htemp, hr⟩ := Checked.bind_eq_ok.mp h
    refine (triple_deviceresourceRead htemp).after ?_
    rintro p bs ⟨⟨lost, rfl, hlost⟩, hsome⟩
    cases temp with
    | none =>
      cases hr
      cases p with
      | some p => cases hsome
      | none => exact .pure ⟨⟨lost, add_zero _, hlost⟩, rfl⟩
    | some resource =>
      obtain ⟨rest, hrest, hr⟩ := Checked.bind_eq_ok.mp hr
      cases hr
      cases p with
      | none => cases hsome
      | some p =>
        obtain rfl := Multiset.card_eq_zero.mp hlost
        refine (triple_deviceresourcesRead items hrest).after ?_
        rintro ⟨nodes, complete⟩ bs ⟨⟨lost, rfl, hlost⟩, hcomplete⟩
        refine .pure ⟨⟨lost, ?_, ?_⟩, ?_⟩
        · rw [deviceresourceBlocks_cons]
          simp only [optionBlocks]
          abel
        · rw [Option.isSome_map]
          exact hlost
        · rw [Option.isSome_map]
          exact hcomplete

-- ---------------------------------------------------------------------------
-- Commands
-- ---------------------------------------------------------------------------

theorem makes_resourceoperationRead {obj : Option Members} {r : ResourceOperation}
    (h : Zigbee.resourceoperationRead obj = .ok r) :
    Makes (resourceoperationRead obj) fun e => resourceoperationBlocks [e] := by
  obtain ⟨pairs, hpairs, -⟩ := Checked.bind_eq_ok.mp h
  refine makes_malloc.bind fun result => ?_
  refine (makes_getString obj _).bind fun index => ?_
  refine (makes_getString obj _).bind fun operation => ?_
  refine (makes_getString obj _).bind fun object => ?_
  refine (makes_getString obj _).bind fun property => ?_
  refine (makes_getString obj _).bind fun parameter => ?_
  refine (makes_getString obj _).bind fun resource => ?_
  refine (makes_arrayToStrings _).bind fun secondary => ?_
  refine (makes_nvpairsRead hpairs).bind fun mappings => .pure ?_
  simp only [resourceoperationBlocks]
  abel

theorem makes_resourceoperationsRead : ∀ (items : List Json) {r : List ResourceOperation},
    (items.mapM fun item => Zigbee.resourceoperationRead (jsonValueGetObject (some item))) = .ok r →
      Makes (resourceoperationsRead items) resourceoperationBlocks
  | [], _, _ => .pure rfl
  | item :: items, _, h => by
    rw [List.mapM_cons] at h
    obtain ⟨op, hop, h⟩ := Checked.bind_eq_ok.mp h
    obtain ⟨ops, hops, -⟩ := Checked.bind_eq_ok.mp h
    refine (makes_resourceoperationRead hop).bind fun temp => ?_
    refine (makes_resourceoperationsRead items hops).bind fun rest => .pure ?_
    simp only [resourceoperationBlocks]
    abel

theorem makes_devicecommandRead {obj : Option Members} {r : DeviceCommand}
    (h : Zigbee.devicecommandRead obj = .ok r) :
    Makes (devicecommandRead obj) fun e => devicecommandBlocks [e] := by
  obtain ⟨sets, hset, h⟩ := Checked.bind_eq_ok.mp h
  obtain ⟨gets, hget, -⟩ := Checked.bind_eq_ok.mp h
  refine makes_malloc.bind fun result => ?_
  refine (makes_getString obj _).bind fun name => ?_
  refine (makes_resourceoperationsRead _ hset).bind fun set => ?_
  refine (makes_resourceoperationsRead _ hget).bind fun get => .pure ?_
  simp only [devicecommandBlocks]
  abel

theorem makes_devicecommandsRead : ∀ (items : List Json) {r : List DeviceCommand},
    (items.mapM fun item => Zigbee.devicecommandRead (jsonValueGetObject (some item))) = .ok r →
      Makes (devicecommandsRead items) devicecommandBlocks
  | [], _, _ => .pure rfl
  | item :: items, _, h => by
    rw [List.mapM_cons] at h
    obtain ⟨command, hcommand, h⟩ := Checked.bind_eq_ok.mp h
    obtain ⟨commands, hcommands, -⟩ := Checked.bind_eq_ok.mp h
    refine (makes_devicecommandRead hcommand).bind fun temp => ?_
    refine (makes_devicecommandsRead items hcommands).bind fun rest => .pure ?_
    simp only [devicecommandBlocks]
    abel

-- ---------------------------------------------------------------------------
-- Profiles
-- ---------------------------------------------------------------------------

/-- A profile that does not parse is freed as far as it came, but for one name. -/
theorem triple_deviceprofileRead {dt : DoubleText} {obj : Option Members}
    {r : Option DeviceProfile} (h : Zigbee.deviceprofileRead dt obj = .ok r) :
    Triple 0 (deviceprofileRead dt obj) fun p bs =>
      Leaks (deviceprofileBlocks p) (if r.isSome then 0 else 1) bs := by
  obtain ⟨resources, hresources, hr⟩ := Checked.bind_eq_ok.mp h
  refine makes_malloc.bind fun result => ?_
  refine (makes_getString obj _).bind fun id => ?_
  refine (makes_getString obj _).bind fun name => ?_
  refine (makes_getString obj _).bind fun description => ?_
  refine (makes_getString obj _).bind fun manufacturer => ?_
  refine (makes_getString obj _).bind fun model => ?_
  refine (makes_arrayToStrings _).bind fun labels => ?_
  refine (triple_deviceresourcesRead _ hresources).after ?_
  rintro ⟨nodes, complete⟩ bs ⟨⟨lost, rfl, hlost⟩, rfl⟩
  cases resources with
  | none =>
    cases hr
    have hblocks : deviceresourceBlocks nodes + lost + (stringsBlocks labels + (block model +
        (block manufacturer + (block description + (block name + (block id + ({result} + 0))))))) =
        deviceprofileBlocks [⟨result, id, name, description, manufacturer, model, labels, nodes, [],
          []⟩] + lost := by
      simp only [deviceprofileBlocks, devicecommandBlocks, cmdinfoBlocks]
      abel
    dsimp only
    rw [hblocks, if_neg (by simp)]
    exact (frees_deviceprofile _).bind (.pure ⟨lost, (zero_add lost).symm, hlost⟩)
  | some resources =>
    obtain ⟨commands, hcommands, hr⟩ := Checked.bind_eq_ok.mp hr
    cases hr
    obtain rfl := Multiset.card_eq_zero.mp hlost
    dsimp only
    rw [if_pos Option.isSome_some]
    refine (makes_devicecommandsRead _ hcommands).bind fun deviceCommands => .pure ⟨0, ?_, rfl⟩
    simp only [deviceprofileBlocks, cmdinfoBlocks]
    abel

-- ---------------------------------------------------------------------------
-- Devices
-- ---------------------------------------------------------------------------

theorem makes_addressableRead (obj : Option Members) :
    Makes (addressableRead obj) fun e => addressableBlocks (some e) := by
  refine makes_malloc.bind fun result => ?_
  refine (makes_getString obj _).bind fun address => ?_
  refine (makes_getString obj _).bind fun id => ?_
  refine (makes_getString obj _).bind fun method => ?_
  refine (makes_getString obj _).bind fun name => ?_
  refine (makes_getString obj _).bind fun password => ?_
  refine (makes_getString obj _).bind fun path => ?_
  refine (makes_getString obj _).bind fun protocol => ?_
  refine (makes_getString obj _).bind fun publisher => ?_
  refine (makes_getString obj _).bind fun topic => ?_
  refine (makes_getString obj _).bind fun user => .pure ?_
  simp only [addressableBlocks]
  abel

theorem makes_deviceserviceRead (obj : Option Members) :
    Makes (deviceserviceRead obj) fun e => deviceserviceBlocks (some e) := by
  refine makes_malloc.bind fun result => ?_
  refine (makes_addressableRead _).bind fun addressable => ?_
  refine (makes_getString obj _).bind fun description => ?_
  refine (makes_getString obj _).bind fun id => ?_
  refine (makes_arrayToStrings _).bind fun labels => ?_
  refine (makes_getString obj _).bind fun name => .pure ?_
  simp only [deviceserviceBlocks]
  abel

theorem triple_autoeventsRead : ∀ (items : List Json) (autos : List AutoeventsNode),
    Triple (autoeventsBlocks autos) (autoeventsRead autos items) fun r bs => bs = autoeventsBlocks r
  | [], _ => .pure rfl
  | item :: items, autos => by
    refine makes_malloc.bind fun temp => ?_
    refine (makes_getString _ _).bind fun resource => ?_
    refine (makes_getString _ _).bind fun frequency => ?_
    have hblocks : block frequency + (block resource + ({temp} + autoeventsBlocks autos)) =
        autoeventsBlocks (⟨temp, resource, frequency⟩ :: autos) := by
      simp only [autoeventsBlocks]
      abel
    rw [hblocks]
    exact triple_autoeventsRead items _

theorem makes_autoeventsRead (items : List Json) :
    Makes (autoeventsRead [] items) autoeventsBlocks := triple_autoeventsRead items []

theorem triple_protocolsRead : ∀ (members : Members) (result : List ProtocolsNode)
    {ps r : List Protocol}, members.foldlM protocolsReadMember ps = .ok r →
      Triple (protocolsBlocks result) (protocolsReadFrom result members)
        fun r bs => bs = protocolsBlocks r
  | [], _, _, _, _ => .pure rfl
  | (name, pval) :: members, result, ps, r, h => by
    obtain ⟨ps', hmember, hrest⟩ := Checked.bind_eq_ok.mp h
    obtain ⟨pairs, hpairs, -⟩ := Checked.bind_eq_ok.mp hmember
    rw [protocolsReadFrom]
    refine makes_malloc.bind fun prot => ?_
    refine (makes_strdup name).bind fun name => ?_
    refine (makes_nvpairsRead hpairs).bind fun properties => ?_
    have hblocks : nvpairsBlocks properties + (block name + ({prot} + protocolsBlocks result)) =
        protocolsBlocks (⟨prot, name, properties⟩ :: result) := by
      simp only [protocolsBlocks]
      abel
    rw [hblocks]
    exact triple_protocolsRead members _ hrest

theorem makes_protocolsRead {obj : Option Members} {r : List Protocol}
    (h : Zigbee.protocolsRead obj = .ok r) :
    Makes (protocolsReadFrom [] (jsonObjectMembers obj)) protocolsBlocks :=
  triple_protocolsRead _ [] h

theorem triple_deviceRead {dt : DoubleText} {obj : Option Members} {d : Device}
    (h : Zigbee.deviceRead dt obj = .ok d) :
    Triple 0 (deviceRead dt obj) fun e bs =>
      Leaks (deviceBlocks [e]) (if d.profile.isSome then 0 else 1) bs := by
  obtain ⟨ps, hps, h⟩ := Checked.bind_eq_ok.mp h
  obtain ⟨p, hp, h⟩ := Checked.bind_eq_ok.mp h
  cases h
  refine makes_malloc.bind fun result => ?_
  refine (makes_protocolsRead hps).bind fun protocols => ?_
  refine (makes_getString obj _).bind fun description => ?_
  refine (makes_getString obj _).bind fun id => ?_
  refine (makes_arrayToStrings _).bind fun labels => ?_
  refine (makes_getString obj _).bind fun name => ?_
  refine (makes_autoeventsRead _).bind fun autos => ?_
  refine (triple_deviceprofileRead hp).after ?_
  rintro profile bs ⟨lost, rfl, hlost⟩
  refine (makes_deviceserviceRead _).bind fun service => .pure ⟨lost, ?_, hlost⟩
  simp only [deviceBlocks]
  abel

theorem triple_devicesRead {dt : DoubleText} : ∀ (items : List Json) {ds : List Device},
    (items.mapM fun item => Zigbee.deviceRead dt (jsonValueGetObject (some item))) = .ok ds →
      Triple 0 (devicesRead dt items) fun es bs =>
        Leaks (deviceBlocks es) (ds.countP (·.profile.isNone)) bs
  | [], _, h => by
    cases h
    exact .pure (.none _)
  | item :: items, _, h => by
    rw [List.mapM_cons] at h
    obtain ⟨d, hd, h⟩ := Checked.bind_eq_ok.mp h
    obtain ⟨ds, hds, h⟩ := Checked.bind_eq_ok.mp h
    cases h
    refine (triple_deviceRead hd).after ?_
    rintro temp bs ⟨lost, rfl, hlost⟩
    refine (triple_devicesRead items hds).after ?_
    rintro rest bs ⟨lost', rfl, hlost'⟩
    refine .pure ⟨lost + lost', ?_, ?_⟩
    · rw [deviceBlocks_cons temp rest]
      abel
    · rw [Multiset.card_add, hlost, hlost', List.countP_cons, Nat.add_comm]
      cases d.profile <;> rfl

end Memory

open CLib

/-- `edgex_devices_read` followed by `edgex_device_free` leaves behind one block for each device whose
profile does not parse, and no other; in between the devices own all the blocks they need. -/
theorem edgexDevicesRead_leaks (parson : Parson) (dt : DoubleText) (json : Text)
    (ds : List Device) (s : CLib.Heap) (h : edgexDevicesRead parson dt json = .ok ds) :
    ∃ es s' lost, Memory.devicesRead dt
        (jsonArrayItems (jsonValueGetArray (parson.parse json))) s = .ok (es, s') ∧
      s'.live = Memory.deviceBlocks es + lost + s.live ∧
      lost.card = ds.countP (·.profile.isNone) ∧
      ∀ (t : CLib.Heap) (others : Multiset Nat), t.live = Memory.deviceBlocks es + lost + others →
        ∃ t', Memory.edgexDeviceFree es t = .ok ((), t') ∧ t'.live = lost + others := by
  obtain ⟨es, bs, s', hrun, ⟨lost, rfl, hlost⟩, hlive⟩ :=
    Memory.triple_devicesRead _ h s s.live (zero_add _).symm
  refine ⟨es, s', lost, hrun, hlive, hlost, fun t others ht => ?_⟩
  rw [add_assoc] at ht
  obtain ⟨r, bs, t', hfree, rfl, hrest⟩ := Memory.frees_device es t _ ht
  exact ⟨t', hfree, hrest.trans (zero_add _)⟩

/-- Two devices: the value of the second one's resource has a type that there is not. -/
def strangeDevices : Json :=
  .array [
    .object [(lit "name", .string (lit "Lamp1"))],
    .object [
      (lit "name", .string (lit "Lamp2")),
      (lit "profile", .object [
        (lit "deviceResources", .array [
          .object [
            (lit "name", .string (lit "Switch")),
            (lit "properties", .object [
              (lit "value", .object [(lit "type", .string (lit "Lamp"))])])]])])]]

theorem strangeDevices_leaks :
    ∃ es s' lost, Memory.devicesRead .empty
        (jsonArrayItems (jsonValueGetArray ((Parson.knowing strangeDevices).parse
          (plainText strangeDevices)))) .empty = .ok (es, s') ∧
      s'.live = Memory.deviceBlocks es + lost + 0 ∧
      lost.card = 1 ∧
      ∀ (t : CLib.Heap) (others : Multiset Nat), t.live = Memory.deviceBlocks es + lost + others →
        ∃ t', Memory.edgexDeviceFree es t = .ok ((), t') ∧ t'.live = lost + others := by
  have hread : ∃ ds, edgexDevicesRead (.knowing strangeDevices) .empty (plainText strangeDevices) =
      .ok ds ∧ ds.countP (·.profile.isNone) = 1 := ⟨_, rfl, rfl⟩
  obtain ⟨ds, hds, hcount⟩ := hread
  rw [← hcount]
  exact edgexDevicesRead_leaks (.knowing strangeDevices) .empty (plainText strangeDevices) ds .empty
    hds

end Zigbee
