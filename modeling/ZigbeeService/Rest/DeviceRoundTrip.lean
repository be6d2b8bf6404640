-- SUMMARY: Devices written as JSON and read back, apart from the contents of their profile.
import ZigbeeService.Rest.ProfileRoundTrip

/-!
# Device round trips

The writer stores the automatic events under `autoevents`, the reader looks for `autoEvents`: none
comes back. The rest of a device does, whatever became of its profile.
-/

namespace Zigbee

open CLib

attribute [local simp] getString getCount jsonObjectGetString jsonObjectGetNumber
  jsonObjectGetObject jsonObjectGetArray jsonObjectSetNumber jsonObjectSetString_valid

/-! ## Protocols -/

/-- The protocols as a map from names to properties. -/
def protocolPairs (ps : List Protocol) : List (Text × NvPairs) :=
  ps.map fun p => (p.name, p.properties)

/-- The same protocol names, each with the same map of properties. -/
def SameProtocols (a b : List Protocol) : Prop :=
  ∀ name, Option.Rel SameMap (assocGet name (protocolPairs a)) (assocGet name (protocolPairs b))

/-- What is read back of a protocol. -/
def Protocol.echo (p : Protocol) : Protocol := ⟨p.name, (assocOf p.properties).reverse⟩

theorem protocolsWrite_eq {ps : List Protocol} (h : (ps.map Protocol.name).Nodup) :
    protocolsWrite ps = .object (ps.map fun p => (p.name, nvpairsWrite p.properties)) := by
  have hfold : ∀ obj : Members,
      ps.foldl (fun obj prot =>
          jsonObjectSetValue obj prot.name (some (nvpairsWrite prot.properties))) obj =
        (ps.map fun p => (p.name, nvpairsWrite p.properties)).foldl
          (fun l p => assocSet p.1 p.2 l) obj := by
    clear h
    induction ps with
    | nil => exact fun _ => rfl
    | cons p ps ih => exact fun obj => ih _
  have hkeys : ((ps.map fun p => (p.name, nvpairsWrite p.properties)).map Prod.fst).Nodup := by
    rw [List.map_map]
    exact h
  rw [protocolsWrite, hfold]
  exact congrArg Json.object (assocOf_of_nodup hkeys)

theorem protocolsRead_protocolsWrite {ps : List Protocol} (hnames : (ps.map Protocol.name).Nodup)
    (hutf : ∀ p ∈ ps, AllUtf8 (pairValues p.properties)) :
    protocolsRead (jsonValueGetObject (some (protocolsWrite ps))) =
      .ok (ps.map Protocol.echo).reverse := by
  have hfold : ∀ result : List Protocol,
      (ps.map fun p => (p.name, nvpairsWrite p.properties)).foldlM protocolsReadMember result =
        .ok ((ps.map Protocol.echo).reverse ++ result) := by
    clear hnames
    induction ps with
    | nil => exact fun _ => rfl
    | cons p ps ih =>
      intro result
      rw [List.forall_mem_cons] at hutf
      rw [List.map_cons, List.foldlM_cons, protocolsReadMember,
        nvpairsRead_nvpairsWrite hutf.1, Checked.ok_bind, Checked.pure_eq, Checked.ok_bind,
        ih hutf.2, List.map_cons, List.reverse_cons, List.append_assoc]
      rfl
  rw [protocolsWrite_eq hnames, jsonValueGetObject_object, protocolsRead, jsonObjectMembers_some,
    hfold, List.append_nil]

/-- Read back, the protocols are the same map. -/
theorem sameProtocols_echo {ps : List Protocol} (hnames : (ps.map Protocol.name).Nodup)
    (hprops : ∀ p ∈ ps, (p.properties.map Prod.fst).Nodup) :
    SameProtocols (ps.map Protocol.echo).reverse ps := by
  intro name
  have hpairs : protocolPairs (ps.map Protocol.echo).reverse =
      ((protocolPairs (ps.map Protocol.echo))).reverse := List.map_reverse
  have hkeys : ((protocolPairs (ps.map Protocol.echo)).map Prod.fst).Nodup := by
    rw [protocolPairs, List.map_map, List.map_map]
    exact hnames
  rw [hpairs, assocGet_reverse hkeys]
  clear hpairs hkeys hnames
  induction ps with
  | nil => exact Option.Rel.none
  | cons p ps ih =>
    rw [List.forall_mem_cons] at hprops
    simp only [protocolPairs, List.map_cons, Protocol.echo, assocGet_cons]
    split
    · refine Option.Rel.some ?_
      rw [sameMap_assocOf_reverse]
      exact assocGet_reverse hprops.1
    · exact ih hprops.2

/-! ## Profiles -/

/-- A written resource is read without a fault, whether or not its arguments parse. -/
theorem deviceresourceRead_returns (dt : DoubleText) {e : DeviceResource}
    (hutf : AllUtf8 e.strings) :
    ∃ r, deviceresourceRead dt (some (deviceresourceMembers dt e)) = .ok r := by
  simp only [DeviceResource.strings, pairTexts, allUtf8_append, allUtf8_cons, allUtf8_nil,
    and_true] at hutf
  obtain ⟨⟨hname, hdescription, htag, -⟩, -, -, hpairs⟩ := hutf
  have hpp : ∃ pp, profilepropertyRead dt
      (jsonObjectGetObject (some (deviceresourceMembers dt e)) (lit "properties")) = .ok pp := by
    have htype := jsonObjectGetString_propertyvalueMembers dt e.properties.value
    have hval : jsonObjectGetObject (jsonObjectGetObject (some (deviceresourceMembers dt e))
        (lit "properties")) (lit "value") = some (propertyvalueMembers dt e.properties.value) := by
      simp +decide [deviceresourceMembers, *]
    rw [profilepropertyRead, hval, propertyvalueRead, htype, edgexPropertytype_roundTrip]
    exact ⟨_, rfl⟩
  have hattributes : nvpairsRead
      (jsonObjectGetObject (some (deviceresourceMembers dt e)) (lit "attributes")) =
        .ok (assocOf e.attributes).reverse := by
    simp +decide [deviceresourceMembers, nvpairsRead_nvpairsWrite hpairs]
  obtain ⟨pp, hpp⟩ := hpp
  rw [deviceresourceRead, hpp, hattributes]
  cases pp with
  | none => exact ⟨none, rfl⟩
  | some pp => exact ⟨_, rfl⟩

theorem deviceresourcesRead_returns {dt : DoubleText} {items : List Json}
    (h : ∀ item ∈ items, ∃ r, deviceresourceRead dt (jsonValueGetObject (some item)) = .ok r) :
    ∃ r, deviceresourcesRead dt items = .ok r := by
  induction items with
  | nil => exact ⟨_, rfl⟩
  | cons item items ih =>
    rw [List.forall_mem_cons] at h
    obtain ⟨⟨temp, htemp⟩, hitems⟩ := h
    obtain ⟨rest, hrest⟩ := ih hitems
    rw [deviceresourcesRead, htemp, hrest]
    cases temp with
    | none => exact ⟨none, rfl⟩
    | some resource => exact ⟨_, rfl⟩

theorem deviceprofileRead_returns (dt : DoubleText) {e : DeviceProfile} (hutf : AllUtf8 e.strings) :
    ∃ r, deviceprofileRead dt (some (deviceprofileMembers dt e)) = .ok r := by
  simp only [DeviceProfile.strings, allUtf8_append, allUtf8_cons, allUtf8_nil, and_true] at hutf
  obtain ⟨⟨hid, hname, hdescription, hmanufacturer, hmodel⟩, -, hresources, hcommands⟩ := hutf
  have hres : ∃ r, deviceresourcesRead dt
      (e.deviceResources.map fun r => .object (deviceresourceMembers dt r)) = .ok r := by
    apply deviceresourcesRead_returns
    intro item hitem
    obtain ⟨r, hr, rfl⟩ := List.mem_map.mp hitem
    exact deviceresourceRead_returns dt fun s hs => hresources s (List.mem_flatMap.mpr ⟨r, hr, hs⟩)
  have hcmd := devicecommandsRead_written (l := e.deviceCommands) fun c hc s hs =>
    hcommands s (List.mem_flatMap.mpr ⟨c, hc, hs⟩)
  obtain ⟨res, hres⟩ := hres
  rw [deviceprofileRead, deviceprofileMembers_resources, deviceprofileMembers_commands, hres, hcmd]
  cases res with
  | none => exact ⟨none, rfl⟩
  | some resources => exact ⟨_, rfl⟩

theorem fits_of_deviceprofileWrite {dt : DoubleText} {e : DeviceProfile} {doc : Json}
    (h : deviceprofileWrite dt e false = .ok doc) :
    ∀ r ∈ e.deviceResources, r.properties.value.Fits dt := by
  obtain ⟨array, harray, -⟩ := Checked.bind_eq_ok.mp h
  intro r hr
  obtain ⟨_, hresource⟩ := Checked.mapM_returns_iff.mp ⟨array, harray⟩ r hr
  obtain ⟨_, hproperties, -⟩ := Checked.bind_eq_ok.mp hresource
  obtain ⟨_, hvalue, -⟩ := Checked.bind_eq_ok.mp hproperties
  exact fits_of_propertyvalueWrite hvalue

/-! ## Devices -/

/-- The strings of a service with its addressable. -/
def DeviceService.allStrings (e : DeviceService) : List Text :=
  e.strings ++ e.addressable.toList.flatMap Addressable.strings

/-- The timestamps of a service with its addressable. -/
def DeviceService.timestamps (e : DeviceService) : List UInt64 :=
  e.counts ++ e.addressable.toList.flatMap fun a => [a.created, a.modified, a.origin]

/-- The strings of a device, those of its service and its profile included. -/
def Device.strings (e : Device) : List Text :=
  [e.description, e.id, e.name] ++ (e.labels ++
    (e.protocols.flatMap (fun p => p.name :: pairTexts p.properties) ++
      (e.autos.flatMap (fun ae => [ae.resource, ae.frequency]) ++
        (e.service.toList.flatMap DeviceService.allStrings ++
          e.profile.toList.flatMap DeviceProfile.strings))))

/-- The timestamps of a device and of its service. -/
def Device.timestamps (e : Device) : List UInt64 :=
  [e.created, e.lastConnected, e.lastReported, e.modified, e.origin] ++
    e.service.toList.flatMap DeviceService.timestamps

/-- The same device, apart from the contents of the profile: protocols in any order and with their
properties in any order, automatic events in any order. -/
structure DeviceInfo.Same (a b : DeviceInfo) : Prop where
  id : a.id = b.id
  name : a.name = b.name
  description : a.description = b.description
  adminState : a.adminState = b.adminState
  operatingState : a.operatingState = b.operatingState
  created : a.created = b.created
  modified : a.modified = b.modified
  lastConnected : a.lastConnected = b.lastConnected
  lastReported : a.lastReported = b.lastReported
  origin : a.origin = b.origin
  labels : a.labels = b.labels
  protocols : SameProtocols a.protocols b.protocols
  service : a.service = b.service
  autos : a.autos.Perm b.autos

/-- The members of a device with the documents of its profile and its service. -/
def deviceMembers (e : Device) (profile service : Json) : Members :=
  let obj := jsonObjectSetString [] (lit "adminState") (edgexAdminstateTostring e.adminState)
  let obj := jsonObjectSetString obj (lit "operatingState")
    (edgexOperatingstateTostring e.operatingState)
  let obj := jsonObjectSetString obj (lit "id") e.id
  let obj := jsonObjectSetNumber obj (lit "created") e.created
  let obj := jsonObjectSetNumber obj (lit "modified") e.modified
  let obj := jsonObjectSetValue obj (lit "profile") (some profile)
  let obj := jsonObjectSetValue obj (lit "service") (some service)
  let obj := jsonObjectSetNumber obj (lit "lastConnected") e.lastConnected
  let obj := jsonObjectSetNumber obj (lit "lastReported") e.lastReported
  let obj := jsonObjectSetValue obj (lit "protocols") (some (protocolsWrite e.protocols))
  let obj := jsonObjectSetValue obj (lit "autoevents") (some (autoeventsWrite e.autos))
  let obj := jsonObjectSetString obj (lit "adminState") (edgexAdminstateTostring e.adminState)
  let obj := jsonObjectSetString obj (lit "name") e.name
  let obj := jsonObjectSetString obj (lit "description") e.description
  let obj := jsonObjectSetValue obj (lit "labels") (some (stringsToArray e.labels))
  let obj := jsonObjectSetString obj (lit "operatingState")
    (edgexOperatingstateTostring e.operatingState)
  jsonObjectSetNumber obj (lit "origin") e.origin

theorem deviceWrite_eq {dt : DoubleText} {e : Device} {p : DeviceProfile} {s : DeviceService}
    {profile service : Json} (hprofile : e.profile = some p) (hservice : e.service = some s)
    (hp : deviceprofileWrite dt p false = .ok profile)
    (hs : deviceserviceWrite s false = .ok service) :
    deviceWrite dt e false = .ok (.object (deviceMembers e profile service)) := by
  rw [deviceWrite, hprofile, hservice]
  simp only [Bool.false_eq_true, if_false, hp, hs, Checked.ok_bind]
  rfl

/-- What is read back of a device. -/
theorem deviceRead_deviceMembers (dt : DoubleText) {e : Device} {pm sm : Members}
    {r : Option DeviceProfile} (hutf : AllUtf8 e.strings)
    (hexact : AllExact [e.created, e.lastConnected, e.lastReported, e.modified, e.origin])
    (hnames : (e.protocols.map Protocol.name).Nodup)
    (hprofile : deviceprofileRead dt (some pm) = .ok r) :
    deviceRead dt (some (deviceMembers e (.object pm) (.object sm))) =
      .ok { e with
        protocols := (e.protocols.map Protocol.echo).reverse
        autos := []
        service := some (deviceserviceRead (some sm))
        profile := r } := by
  simp only [Device.strings, allUtf8_append, allUtf8_cons, allUtf8_nil, and_true] at hutf
  simp only [allExact_cons, allExact_nil, and_true] at hexact
  obtain ⟨⟨hdescription, hid, hname⟩, hlabels, hprotocols, -⟩ := hutf
  obtain ⟨hcreated, hconnected, hreported, hmodified, horigin⟩ := hexact
  have hadmin := isValidUtf8_adminstate e.adminState
  have hop := isValidUtf8_operatingstate e.operatingState
  have hpairs : ∀ p ∈ e.protocols, AllUtf8 (pairValues p.properties) := by
    intro p hp s hs
    exact hprotocols s (List.mem_flatMap.mpr
      ⟨p, hp, List.mem_cons_of_mem _ (List.mem_append_right _ hs)⟩)
  have hread := protocolsRead_protocolsWrite hnames hpairs
  simp +decide [deviceRead, deviceMembers, *, edgexAdminstate_roundTrip,
    edgexOperatingstate_roundTrip, arrayToStrings_stringsToArray]

/-- The device is written, the text is read, and what is read is the device. -/
def Device.RoundTrips (parson : Parson) (dt : DoubleText) (e : Device) : Prop :=
  ∃ text d, edgexDeviceWrite parson dt e false = .ok text ∧
    edgexDeviceRead parson dt text = .ok (some d) ∧ d.toDeviceInfo.Same e.toDeviceInfo

/-- The device has what the writer follows without asking, and no automatic events. -/
structure Device.Survives (dt : DoubleText) (e : Device) : Prop where
  profile : ∃ p, e.profile = some p ∧ ∀ r ∈ p.deviceResources, r.properties.value.Fits dt
  service : ∃ s a, e.service = some s ∧ s.addressable = some a ∧
    uint64OfDouble (doubleOfUint64 a.port) = a.port
  autos : e.autos = []

/-- What a device needs to be written at all. -/
theorem deviceWrite_eq_ok {dt : DoubleText} {e : Device} {doc : Json}
    (h : deviceWrite dt e false = .ok doc) :
    ∃ p s a, e.profile = some p ∧ e.service = some s ∧ s.addressable = some a ∧
      ∀ r ∈ p.deviceResources, r.properties.value.Fits dt := by
  cases hprofile : e.profile with
  | none =>
    rw [deviceWrite, hprofile] at h
    cases h
  | some p =>
    cases hservice : e.service with
    | none =>
      rw [deviceWrite, hprofile, hservice] at h
      cases h
    | some s =>
      rw [deviceWrite, hprofile, hservice] at h
      simp only [Bool.false_eq_true, if_false] at h
      cases hp : deviceprofileWrite dt p false with
      | error _ =>
        rw [hp] at h
        cases h
      | ok profile =>
        rw [hp, Checked.ok_bind] at h
        cases hs : deviceserviceWrite s false with
        | error _ =>
          rw [hs] at h
          cases h
        | ok service =>
          obtain ⟨a, ha⟩ := deviceserviceWrite_eq_ok hs
          exact ⟨p, s, a, rfl, rfl, ha, fits_of_deviceprofileWrite hp⟩

/-- What comes back of a device that is written: all but the automatic events, and the port rounded
to a double. -/
theorem edgexDeviceRead_edgexDeviceWrite {parson : Parson} {dt : DoubleText} {e : Device}
    {p : DeviceProfile} {s : DeviceService} {a : Addressable} (hprofile : e.profile = some p)
    (hservice : e.service = some s) (haddr : s.addressable = some a)
    (hfits : ∀ r ∈ p.deviceResources, r.properties.value.Fits dt) (hutf : AllUtf8 e.strings)
    (hexact : AllExact e.timestamps) (hnames : (e.protocols.map Protocol.name).Nodup)
    (hparson : ∀ doc, deviceWrite dt e false = .ok doc → parson.ParsesBack doc) :
    ∃ text r, edgexDeviceWrite parson dt e false = .ok text ∧
      edgexDeviceRead parson dt text =
        .ok (some { e with
          protocols := (e.protocols.map Protocol.echo).reverse
          autos := []
          service := some { s with
            addressable := some { a with port := uint64OfDouble (doubleOfUint64 a.port) } }
          profile := r }) := by
  have hall := hutf
  simp only [Device.strings, hprofile, hservice, haddr, DeviceService.allStrings,
    Option.toList_some, List.flatMap_cons, List.flatMap_nil, List.append_nil,
    allUtf8_append] at hall
  obtain ⟨-, -, -, -, ⟨hserviceUtf, haddrUtf⟩, hprofileUtf⟩ := hall
  have htimes := hexact
  simp only [Device.timestamps, hservice, haddr, DeviceService.timestamps, Option.toList_some,
    List.flatMap_cons, List.flatMap_nil, List.append_nil] at htimes
  have hown : AllExact [e.created, e.lastConnected, e.lastReported, e.modified, e.origin] :=
    fun n hn => htimes n (List.mem_append_left _ hn)
  have hserviceExact : AllExact s.counts := fun n hn =>
    htimes n (List.mem_append_right _ (List.mem_append_left _ hn))
  have haddrExact : AllExact [a.created, a.modified, a.origin] := fun n hn =>
    htimes n (List.mem_append_right _ (List.mem_append_right _ hn))
  obtain ⟨sm, hswrite, hsread⟩ :=
    deviceserviceRead_deviceserviceWrite haddr hserviceUtf hserviceExact
  obtain ⟨r, hr⟩ := deviceprofileRead_returns dt hprofileUtf
  have hwrite := deviceWrite_eq hprofile hservice (deviceprofileWrite_eq hfits) hswrite
  have hback := hparson _ hwrite
  refine ⟨_, r, by rw [edgexDeviceWrite, hwrite]; rfl, ?_⟩
  rw [edgexDeviceRead, hback, jsonValueGetObject_object]
  dsimp only
  rw [deviceRead_deviceMembers dt hutf hown hnames hr, hsread, addressableRead_port haddrUtf haddrExact]
  rfl

section Device

variable {parson : Parson} {dt : DoubleText} {e : Device}

theorem Device.survives_of_roundTrips (hutf : AllUtf8 e.strings) (hexact : AllExact e.timestamps)
    (hnames : (e.protocols.map Protocol.name).Nodup)
    (hparson : ∀ doc, deviceWrite dt e false = .ok doc → parson.ParsesBack doc)
    (h : e.RoundTrips parson dt) : e.Survives dt := by
  obtain ⟨text, d, hw, hr, hsame⟩ := h
  obtain ⟨doc, hdoc, -⟩ := Checked.bind_eq_ok.mp hw
  obtain ⟨p, s, a, hprofile, hservice, haddr, hfits⟩ := deviceWrite_eq_ok hdoc
  obtain ⟨text', r, hw', hr'⟩ := edgexDeviceRead_edgexDeviceWrite hprofile hservice haddr hfits
    hutf hexact hnames hparson
  cases hw.symm.trans hw'
  cases hr.symm.trans hr'
  have hback := hsame.service
  rw [hservice, Option.some_inj] at hback
  have haddrBack := congrArg DeviceService.addressable hback
  rw [haddr, Option.some_inj] at haddrBack
  exact {
    profile := ⟨p, hprofile, hfits⟩
    service := ⟨s, a, hservice, haddr, congrArg Addressable.port haddrBack⟩
    autos := List.nil_perm.mp hsame.autos }

theorem Device.roundTrips_of_survives (hutf : AllUtf8 e.strings) (hexact : AllExact e.timestamps)
    (hnames : (e.protocols.map Protocol.name).Nodup)
    (hprops : ∀ p ∈ e.protocols, (p.properties.map Prod.fst).Nodup)
    (hparson : ∀ doc, deviceWrite dt e false = .ok doc → parson.ParsesBack doc)
    (h : e.Survives dt) : e.RoundTrips parson dt := by
  obtain ⟨⟨p, hprofile, hfits⟩, ⟨s, a, hservice, haddr, hport⟩, hautos⟩ := h
  obtain ⟨text, r, hw, hr⟩ := edgexDeviceRead_edgexDeviceWrite hprofile hservice haddr hfits
    hutf hexact hnames hparson
  refine ⟨text, _, hw, hr, ?_⟩
  exact {
    id := rfl, name := rfl, description := rfl, adminState := rfl, operatingState := rfl
    created := rfl, modified := rfl, lastConnected := rfl, lastReported := rfl, origin := rfl
    labels := rfl
    protocols := sameProtocols_echo hnames hprops
    service := by rw [hport, hservice, ← haddr]
    autos := by rw [hautos] }

end Device

/-- A device survives exactly when it has no automatic events: they are written under `autoevents`
and read from `autoEvents`. -/
theorem device_roundTrips_iff {parson : Parson} {dt : DoubleText} {e : Device}
    (hutf : AllUtf8 e.strings) (htimes : ∀ n ∈ e.timestamps, n.toNat < 2 ^ 53)
    (hnames : (e.protocols.map Protocol.name).Nodup)
    (hprops : ∀ p ∈ e.protocols, (p.properties.map Prod.fst).Nodup)
    (hparson : ∀ doc, deviceWrite dt e false = .ok doc → parson.ParsesBack doc) :
    e.RoundTrips parson dt ↔ e.Survives dt :=
  ⟨e.survives_of_roundTrips hutf (allExact_of_lt htimes) hnames hparson,
    e.roundTrips_of_survives hutf (allExact_of_lt htimes) hnames hprops hparson⟩

/-- A lamp with two protocols. -/
def lampDevice (autos : List AutoEvent) : Device where
  protocols :=
    [⟨lit "zigbee", [(lit "address", lit "0x1A2B"), (lit "endpoint", lit "1")]⟩,
      ⟨lit "other", []⟩]
  adminState := .unlocked
  created := 1577836800000
  description := lit "A lamp"
  id := lit "d1"
  labels := [lit "b", lit "a"]
  lastConnected := 0
  lastReported := 0
  modified := 1577836800001
  name := lit "Lamp1"
  operatingState := .enabled
  origin := 0
  autos := autos
  service := some zigbeeService
  profile := some (lampProfile [lampOperation] [lampOperation])

/-- The parson of the lamp's document. -/
def lampDeviceParson (autos : List AutoEvent) : Parson :=
  .knowing (((deviceWrite .empty (lampDevice autos) false).toOption).getD .null)

theorem lampDeviceParson_parsesBack (autos : List AutoEvent) (doc : Json)
    (h : deviceWrite .empty (lampDevice autos) false = .ok doc) :
    (lampDeviceParson autos).ParsesBack doc := by
  rw [lampDeviceParson, h]
  exact Parson.knowing_parsesBack doc

theorem lampDevice_exact (autos : List AutoEvent) :
    ∀ n ∈ (lampDevice autos).timestamps, n.toNat < 2 ^ 53 := by
  simp [Device.timestamps, lampDevice, DeviceService.timestamps, DeviceService.counts,
    zigbeeService, zigbeeAddressable]

/-- Without automatic events the lamp comes back. -/
theorem lampDevice_roundTrips : (lampDevice []).RoundTrips (lampDeviceParson []) .empty := by
  refine (device_roundTrips_iff (by decide) (lampDevice_exact []) (by decide) (by decide)
    (lampDeviceParson_parsesBack [])).mpr ⟨⟨_, rfl, ?_⟩, ⟨_, _, rfl, rfl, by decide⟩, rfl⟩
  intro r hr
  exact (lampProfile_noFloatArgs _ _ r hr).fits _

/-- An event every ten seconds is lost. -/
theorem lampDevice_autos_lost :
    let e := lampDevice [⟨lit "Switch", lit "10s", true⟩]
    AllUtf8 e.strings ∧ (∀ n ∈ e.timestamps, n.toNat < 2 ^ 53) ∧
      (e.protocols.map Protocol.name).Nodup ∧
      (∀ p ∈ e.protocols, (p.properties.map Prod.fst).Nodup) ∧
      ¬ e.RoundTrips (lampDeviceParson e.autos) .empty := by
  have hutf : AllUtf8 (lampDevice [⟨lit "Switch", lit "10s", true⟩]).strings := by decide
  refine ⟨hutf, lampDevice_exact _, by decide, by decide, ?_⟩
  intro h
  have hsurvives := Device.survives_of_roundTrips hutf (allExact_of_lt (lampDevice_exact _))
    (by decide) (lampDeviceParson_parsesBack _) h
  cases hsurvives.autos

end Zigbee
