-- SUMMARY: The document of the configuration endpoint (config.c): what two configurations with the same document have in common.
import ZigbeeService.Config.File
import ZigbeeService.Lib.JsonSame

/-!
# The configuration endpoint

`edgex_device_handler_config` replies with the configuration as a JSON document. Parson leaves out a
member whose string is NULL or not UTF-8, and a member that is set again is replaced.
-/

namespace Zigbee

open CLib

-- ---------------------------------------------------------------------------
-- The document
-- ---------------------------------------------------------------------------

/-- `json_object_set_string` with a pointer that may be NULL. -/
def setOptString (obj : Members) (name : Text) (s : Option Text) : Members :=
  jsonObjectSetValue obj name (s.bind jsonValueInitString)

/-- An endpoint in `Clients`. -/
def endpointValue (e : EdgexDeviceServiceEndpoint) : Json :=
  let obj := setOptString [] (lit "Host") e.host
  let obj := jsonObjectSetNumber obj (lit "Port") e.port.toUInt64
  .object obj

/-- The object `Clients`. -/
def clientsValue (endpoints : EdgexServiceEndpoints) : Json :=
  let cobj := jsonObjectSetValue [] (lit "Metadata") (some (endpointValue endpoints.metadata))
  let cobj := jsonObjectSetValue cobj (lit "Data") (some (endpointValue endpoints.data))
  -- the logging endpoint, under the key of the one before
  let cobj := jsonObjectSetValue cobj (lit "Data") (some (endpointValue endpoints.logging))
  .object cobj

/-- The object `Logging`. -/
def loggingValue (logging : EdgexDeviceLogginginfo) : Json :=
  let lobj := setOptString [] (lit "File") logging.file
  let lobj := jsonObjectSetBoolean lobj (lit "EnableRemote") logging.useremote
  .object lobj

/-- The object `Service`. The loop over the labels follows their pointer. -/
def serviceValue (service : EdgexDeviceServiceinfo) : Checked Json :=
  match service.labels with
  | none => .error .nullPointer
  | some labels =>
    let sobj := setOptString [] (lit "Host") service.host
    let sobj := jsonObjectSetNumber sobj (lit "Port") service.port.toUInt64
    let sobj := jsonObjectSetNumber sobj (lit "Timeout") service.timeout.toUInt64
    let sobj := jsonObjectSetNumber sobj (lit "ConnectRetries") service.connectretries.toUInt64
    let sobj := setOptString sobj (lit "StartupMsg") service.startupmsg
    let sobj := setOptString sobj (lit "CheckInterval") service.checkinterval
    let sobj := jsonObjectSetValue sobj (lit "Labels")
      (some (.array (labels.foldl jsonArrayAppendString [])))
    .ok (.object sobj)

/-- The object `Device`. -/
def deviceValue (device : EdgexDeviceDeviceinfo) : Json :=
  let dobj := jsonObjectSetBoolean [] (lit "DataTransform") device.datatransform
  let dobj := jsonObjectSetBoolean dobj (lit "Discovery") device.discovery
  let dobj := setOptString dobj (lit "InitCmd") device.initcmd
  let dobj := setOptString dobj (lit "InitCmdArgs") device.initcmdargs
  let dobj := jsonObjectSetNumber dobj (lit "MaxCmdOps") device.maxcmdops.toUInt64
  let dobj := jsonObjectSetNumber dobj (lit "MaxCmdResultLen") device.maxcmdresultlen.toUInt64
  let dobj := setOptString dobj (lit "RemoveCmd") device.removecmd
  let dobj := setOptString dobj (lit "RemoveCmdArgs") device.removecmdargs
  let dobj := setOptString dobj (lit "ProfilesDir") device.profilesdir
  let dobj := jsonObjectSetBoolean dobj (lit "SendReadingsOnChanged") device.sendreadingsonchanged
  .object dobj

/-- The object `Driver`, if there are settings of the driver. -/
def driverValue (driverconf : NvPairs) : Option Json :=
  if driverconf = [] then none
  else
    let dobj := driverconf.foldl (fun dobj iter => jsonObjectSetString dobj iter.1 iter.2) []
    some (.object dobj)

/-- `edgex_device_handler_config`: the document that goes into the reply. -/
def edgexDeviceHandlerConfig (config : EdgexServiceConfig) : Checked Json := do
  let obj := jsonObjectSetValue [] (lit "Clients") (some (clientsValue config.endpoints))
  let obj := jsonObjectSetValue obj (lit "Logging") (some (loggingValue config.logging))
  let service ← serviceValue config.service
  let obj := jsonObjectSetValue obj (lit "Service") (some service)
  let obj := jsonObjectSetValue obj (lit "Device") (some (deviceValue config.device))
  let obj := jsonObjectSetValue obj (lit "Driver") (driverValue config.driverconf)
  .ok (.object obj)

-- ---------------------------------------------------------------------------
-- What the document is to tell
-- ---------------------------------------------------------------------------

/-- The driver's settings as a map: the last pair of a name counts. -/
def driverSetting (driverconf : NvPairs) (name : Text) : Option Text :=
  assocGet name driverconf.reverse

/-- Two configurations with the same endpoints, the same settings of service, device and logging
that are shown, and the same settings of the driver. -/
structure SameConfig (c c' : EdgexServiceConfig) : Prop where
  endpoints : c.endpoints = c'.endpoints
  service : c.service = c'.service
  device : c.device = c'.device
  file : c.logging.file = c'.logging.file
  useremote : c.logging.useremote = c'.logging.useremote
  driver : ∀ name, driverSetting c.driverconf name = driverSetting c'.driverconf name

/-- Configurations that are not the same have documents that are not. -/
def ToldApart (c c' : EdgexServiceConfig) : Prop :=
  ¬ SameConfig c c' → ∃ doc doc', edgexDeviceHandlerConfig c = .ok doc ∧
    edgexDeviceHandlerConfig c' = .ok doc' ∧ ¬ SameJson doc doc'

/-- An endpoint's host and port stand under a key of `Clients`. -/
def ShowsEndpoint (doc : Json) (key : Text) (e : EdgexDeviceServiceEndpoint) : Prop :=
  ∃ client, jsonObjectGetObject (jsonObjectGetObject (jsonValueGetObject (some doc))
      (lit "Clients")) key = some client ∧
    jsonObjectGetString (some client) (lit "Host") = e.host ∧
    jsonObjectGetValue (some client) (lit "Port") =
      some (.number (doubleOfUint64 e.port.toUInt64))

/-- Every endpoint stands under its own key. -/
def ShowsEndpoints (doc : Json) (endpoints : EdgexServiceEndpoints) : Prop :=
  ShowsEndpoint doc (lit "Metadata") endpoints.metadata ∧
    ShowsEndpoint doc (lit "Data") endpoints.data ∧
    ShowsEndpoint doc (lit "Logging") endpoints.logging

-- ---------------------------------------------------------------------------
-- What it tells
-- ---------------------------------------------------------------------------

/-- A string as it can be shown: one that is not UTF-8 is missing. -/
def shownText (s : Option Text) : Option Text := s.filter isValidUtf8

def EdgexDeviceServiceEndpoint.shown (e : EdgexDeviceServiceEndpoint) :
    EdgexDeviceServiceEndpoint :=
  { e with host := shownText e.host }

def EdgexDeviceServiceinfo.shown (service : EdgexDeviceServiceinfo) : EdgexDeviceServiceinfo :=
  { service with
    host := shownText service.host
    startupmsg := shownText service.startupmsg
    checkinterval := shownText service.checkinterval
    labels := service.labels.map fun labels => labels.filter isValidUtf8 }

def EdgexDeviceDeviceinfo.shown (device : EdgexDeviceDeviceinfo) : EdgexDeviceDeviceinfo :=
  { device with
    initcmd := shownText device.initcmd
    initcmdargs := shownText device.initcmdargs
    removecmd := shownText device.removecmd
    removecmdargs := shownText device.removecmdargs
    profilesdir := shownText device.profilesdir }

/-- The settings of the driver that can be shown. -/
def shownDriver (driverconf : NvPairs) : NvPairs := driverconf.filter fun iter => isValidUtf8 iter.2

/-- Two configurations that are the same in what can be shown, the data endpoint apart. -/
structure SameShown (c c' : EdgexServiceConfig) : Prop where
  metadata : c.endpoints.metadata.shown = c'.endpoints.metadata.shown
  logging : c.endpoints.logging.shown = c'.endpoints.logging.shown
  service : c.service.shown = c'.service.shown
  device : c.device.shown = c'.device.shown
  file : shownText c.logging.file = shownText c'.logging.file
  useremote : c.logging.useremote = c'.logging.useremote
  driver : ∀ name, driverSetting (shownDriver c.driverconf) name =
    driverSetting (shownDriver c'.driverconf) name
  anyDriver : c.driverconf = [] ↔ c'.driverconf = []

-- ---------------------------------------------------------------------------
-- The parts of the document
-- ---------------------------------------------------------------------------

theorem doubleOfUint64_inj {a b : UInt64} (ha : a.toNat < 2 ^ 53) (hb : b.toNat < 2 ^ 53) :
    doubleOfUint64 a = doubleOfUint64 b ↔ a = b := by
  constructor
  · intro h
    rw [← uint64OfDouble_doubleOfUint64 ha, h, uint64OfDouble_doubleOfUint64 hb]
  · rintro rfl
    rfl

/-- A count is told by its number. -/
@[simp] theorem doubleOfUint64_uint32_inj {n m : UInt32} :
    doubleOfUint64 n.toUInt64 = doubleOfUint64 m.toUInt64 ↔ n = m := by
  have hexact : ∀ k : UInt32, k.toUInt64.toNat < 2 ^ 53 := by
    intro k
    rw [UInt32.toNat_toUInt64]
    exact Nat.lt_trans k.toNat_lt (by decide)
  rw [doubleOfUint64_inj (hexact n) (hexact m), UInt32.toUInt64_inj]

/-- A port is told by its number. -/
@[simp] theorem doubleOfUint64_uint16_inj {n m : UInt16} :
    doubleOfUint64 n.toUInt64 = doubleOfUint64 m.toUInt64 ↔ n = m := by
  have hexact : ∀ k : UInt16, k.toUInt64.toNat < 2 ^ 53 := by
    intro k
    rw [UInt16.toNat_toUInt64]
    exact Nat.lt_trans k.toNat_lt (by decide)
  rw [doubleOfUint64_inj (hexact n) (hexact m), UInt16.toUInt64_inj]

theorem sameJson_endpointValue_iff {e e' : EdgexDeviceServiceEndpoint} :
    SameJson (endpointValue e) (endpointValue e') ↔ e.shown = e'.shown := by
  have hrows : ∀ e : EdgexDeviceServiceEndpoint, endpointValue e = .object (membersOf
      [(lit "Host", e.host.bind jsonValueInitString),
       (lit "Port", some (.number (doubleOfUint64 e.port.toUInt64)))]) := fun _ => rfl
  rw [hrows, hrows]
  refine (sameJson_membersOf_iff [lit "Host", lit "Port"] (by rfl) (by rfl) (by decide)).trans ?_
  simp [sameJson_optString_iff, EdgexDeviceServiceEndpoint.shown, shownText]

/-- The data endpoint is not in the object. -/
theorem sameJson_clientsValue_iff {endpoints endpoints' : EdgexServiceEndpoints} :
    SameJson (clientsValue endpoints) (clientsValue endpoints') ↔
      endpoints.metadata.shown = endpoints'.metadata.shown ∧
        endpoints.logging.shown = endpoints'.logging.shown := by
  have hrows : ∀ endpoints : EdgexServiceEndpoints, clientsValue endpoints = .object (membersOf
      [(lit "Metadata", some (endpointValue endpoints.metadata)),
       (lit "Data", some (endpointValue endpoints.logging))]) := fun _ => rfl
  rw [hrows, hrows]
  refine (sameJson_membersOf_iff [lit "Metadata", lit "Data"] (by rfl) (by rfl)
    (by decide)).trans ?_
  simp [sameJson_endpointValue_iff]

theorem sameJson_loggingValue_iff {logging logging' : EdgexDeviceLogginginfo} :
    SameJson (loggingValue logging) (loggingValue logging') ↔
      shownText logging.file = shownText logging'.file ∧
        logging.useremote = logging'.useremote := by
  have hrows : ∀ logging : EdgexDeviceLogginginfo, loggingValue logging = .object (membersOf
      [(lit "File", logging.file.bind jsonValueInitString),
       (lit "EnableRemote", some (.boolean logging.useremote))]) := fun _ => rfl
  rw [hrows, hrows]
  refine (sameJson_membersOf_iff [lit "File", lit "EnableRemote"] (by rfl) (by rfl)
    (by decide)).trans ?_
  simp [sameJson_optString_iff, shownText]

/-- The labels in the document are those that are UTF-8. -/
theorem foldl_jsonArrayAppendString_filter (labels : List Text) :
    labels.foldl jsonArrayAppendString [] = (labels.filter isValidUtf8).map .string := by
  have hfold : ∀ items : List Json, labels.foldl jsonArrayAppendString items =
      items ++ (labels.filter isValidUtf8).map .string := by
    induction labels with
    | nil => exact fun items => (List.append_nil items).symm
    | cons label labels ih =>
      intro items
      rw [List.foldl_cons, ih, jsonArrayAppendString, jsonValueInitString]
      by_cases hvalid : isValidUtf8 label = true <;> simp [hvalid]
  exact hfold []

theorem sameJson_serviceValue_iff {service service' : EdgexDeviceServiceinfo}
    {labels labels' : List Text} {doc doc' : Json} (hlabels : service.labels = some labels)
    (hlabels' : service'.labels = some labels') (hdoc : serviceValue service = .ok doc)
    (hdoc' : serviceValue service' = .ok doc') :
    SameJson doc doc' ↔ service.shown = service'.shown := by
  have hrows : ∀ (service : EdgexDeviceServiceinfo) (labels : List Text) (doc : Json),
      service.labels = some labels → serviceValue service = .ok doc → doc = .object (membersOf
        [(lit "Host", service.host.bind jsonValueInitString),
         (lit "Port", some (.number (doubleOfUint64 service.port.toUInt64))),
         (lit "Timeout", some (.number (doubleOfUint64 service.timeout.toUInt64))),
         (lit "ConnectRetries", some (.number (doubleOfUint64 service.connectretries.toUInt64))),
         (lit "StartupMsg", service.startupmsg.bind jsonValueInitString),
         (lit "CheckInterval", service.checkinterval.bind jsonValueInitString),
         (lit "Labels", some (.array ((labels.filter isValidUtf8).map .string)))]) := by
    intro service labels doc hlabels hdoc
    rw [serviceValue, hlabels] at hdoc
    cases hdoc
    rw [← foldl_jsonArrayAppendString_filter]
    rfl
  rw [hrows _ _ _ hlabels hdoc, hrows _ _ _ hlabels' hdoc']
  refine (sameJson_membersOf_iff [lit "Host", lit "Port", lit "Timeout", lit "ConnectRetries",
    lit "StartupMsg", lit "CheckInterval", lit "Labels"] (by rfl) (by rfl)
    (by decide +kernel)).trans ?_
  simp only [List.forall₂_cons, List.forall₂_nil_left_iff, sameJson_optString_iff,
    sameJson_strings_iff, Option.rel_some_some, sameJson_number_iff, doubleOfUint64_uint32_inj,
    doubleOfUint64_uint16_inj, EdgexDeviceServiceinfo.shown, shownText, hlabels, hlabels',
    EdgexDeviceServiceinfo.mk.injEq, Option.map_some, Option.some.injEq]
  tauto

theorem sameJson_deviceValue_iff {device device' : EdgexDeviceDeviceinfo} :
    SameJson (deviceValue device) (deviceValue device') ↔ device.shown = device'.shown := by
  have hrows : ∀ device : EdgexDeviceDeviceinfo, deviceValue device = .object (membersOf
      [(lit "DataTransform", some (.boolean device.datatransform)),
       (lit "Discovery", some (.boolean device.discovery)),
       (lit "InitCmd", device.initcmd.bind jsonValueInitString),
       (lit "InitCmdArgs", device.initcmdargs.bind jsonValueInitString),
       (lit "MaxCmdOps", some (.number (doubleOfUint64 device.maxcmdops.toUInt64))),
       (lit "MaxCmdResultLen", some (.number (doubleOfUint64 device.maxcmdresultlen.toUInt64))),
       (lit "RemoveCmd", device.removecmd.bind jsonValueInitString),
       (lit "RemoveCmdArgs", device.removecmdargs.bind jsonValueInitString),
       (lit "ProfilesDir", device.profilesdir.bind jsonValueInitString),
       (lit "SendReadingsOnChanged", some (.boolean device.sendreadingsonchanged))]) :=
    fun _ => rfl
  rw [hrows, hrows]
  refine (sameJson_membersOf_iff [lit "DataTransform", lit "Discovery", lit "InitCmd",
    lit "InitCmdArgs", lit "MaxCmdOps", lit "MaxCmdResultLen", lit "RemoveCmd",
    lit "RemoveCmdArgs", lit "ProfilesDir", lit "SendReadingsOnChanged"] (by rfl) (by rfl)
    (by decide +kernel)).trans ?_
  simp only [List.forall₂_cons, List.forall₂_nil_left_iff, sameJson_optString_iff,
    Option.rel_some_some, sameJson_number_iff, sameJson_boolean_iff, doubleOfUint64_uint32_inj,
    EdgexDeviceDeviceinfo.shown, shownText, EdgexDeviceDeviceinfo.mk.injEq]
  tauto

/-- A setting of the driver is in the document as the last pair of its name that is UTF-8. -/
theorem assocGet_driverMembers (driverconf : NvPairs) (name : Text) :
    assocGet name
        (driverconf.foldl (fun dobj iter => jsonObjectSetString dobj iter.1 iter.2) []) =
      (driverSetting (shownDriver driverconf) name).map .string := by
  have hfold : ∀ dobj : Members,
      driverconf.foldl (fun dobj iter => jsonObjectSetString dobj iter.1 iter.2) dobj =
        ((shownDriver driverconf).map (Prod.map id Json.string)).foldl
          (fun l p => assocSet p.1 p.2 l) dobj := by
    induction driverconf with
    | nil => exact fun _ => rfl
    | cons iter driverconf ih =>
      intro dobj
      rw [List.foldl_cons, ih, jsonObjectSetString, jsonValueInitString]
      by_cases hvalid : isValidUtf8 iter.2 = true <;>
        simp [shownDriver, hvalid, jsonObjectSetValue]
  rw [hfold, assocGet_foldl_assocSet, assocGet_nil, Option.or_none, ← List.map_reverse,
    assocGet_map, driverSetting]

theorem sameJson_driverValue_iff {driverconf driverconf' : NvPairs} :
    Option.Rel SameJson (driverValue driverconf) (driverValue driverconf') ↔
      (driverconf = [] ↔ driverconf' = []) ∧
        ∀ name, driverSetting (shownDriver driverconf) name =
          driverSetting (shownDriver driverconf') name := by
  have hmember : ∀ s t : Option Text,
      Option.Rel SameJson (s.map .string) (t.map .string) ↔ s = t := by
    intro s t
    cases s <;> cases t <;> simp
  rw [driverValue, driverValue]
  by_cases hnil : driverconf = []
  · by_cases hnil' : driverconf' = []
    · rw [if_pos hnil, if_pos hnil', hnil, hnil']
      exact iff_of_true .none ⟨Iff.rfl, fun _ => rfl⟩
    · rw [if_pos hnil, if_neg hnil']
      exact iff_of_false nofun fun hand => hnil' (hand.1.mp hnil)
  · by_cases hnil' : driverconf' = []
    · rw [if_neg hnil, if_pos hnil']
      exact iff_of_false nofun fun hand => hnil (hand.1.mpr hnil')
    · rw [if_neg hnil, if_neg hnil', Option.rel_some_some, sameJson_object_iff]
      simp only [assocGet_driverMembers, hmember]
      exact (and_iff_right (iff_of_false hnil hnil')).symm

-- ---------------------------------------------------------------------------
-- The whole document
-- ---------------------------------------------------------------------------

/-- There is a document exactly when the labels are not NULL. -/
theorem edgexDeviceHandlerConfig_eq_ok {c : EdgexServiceConfig} {doc : Json} :
    edgexDeviceHandlerConfig c = .ok doc ↔
      ∃ labels service, c.service.labels = some labels ∧ serviceValue c.service = .ok service ∧
        doc = .object (membersOf
          [(lit "Clients", some (clientsValue c.endpoints)),
           (lit "Logging", some (loggingValue c.logging)),
           (lit "Service", some service),
           (lit "Device", some (deviceValue c.device)),
           (lit "Driver", driverValue c.driverconf)]) := by
  rw [edgexDeviceHandlerConfig, Checked.bind_eq_ok]
  constructor
  · rintro ⟨service, hservice, h⟩
    cases hlabels : c.service.labels with
    | none =>
      rw [serviceValue, hlabels] at hservice
      cases hservice
    | some labels =>
      cases h
      exact ⟨labels, service, rfl, hservice, rfl⟩
  · rintro ⟨labels, service, -, hservice, rfl⟩
    exact ⟨service, hservice, rfl⟩

/-- Two configurations have the same document exactly when they are the same in what can be shown,
the data endpoint apart. -/
theorem sameJson_configuration_iff {c c' : EdgexServiceConfig} {doc doc' : Json}
    (h : edgexDeviceHandlerConfig c = .ok doc) (h' : edgexDeviceHandlerConfig c' = .ok doc') :
    SameJson doc doc' ↔ SameShown c c' := by
  obtain ⟨labels, service, hlabels, hservice, rfl⟩ := edgexDeviceHandlerConfig_eq_ok.mp h
  obtain ⟨labels', service', hlabels', hservice', rfl⟩ := edgexDeviceHandlerConfig_eq_ok.mp h'
  refine (sameJson_membersOf_iff [lit "Clients", lit "Logging", lit "Service", lit "Device",
    lit "Driver"] (by rfl) (by rfl) (by decide +kernel)).trans ?_
  simp only [List.forall₂_cons, List.forall₂_nil_left_iff, Option.rel_some_some,
    sameJson_clientsValue_iff, sameJson_loggingValue_iff, sameJson_deviceValue_iff,
    sameJson_driverValue_iff, sameJson_serviceValue_iff hlabels hlabels' hservice hservice']
  constructor
  · rintro ⟨⟨hmetadata, hlogging⟩, ⟨hfile, huseremote⟩, hservice, hdevice, ⟨hany, hdriver⟩, -⟩
    exact ⟨hmetadata, hlogging, hservice, hdevice, hfile, huseremote, hdriver, hany⟩
  · rintro ⟨hmetadata, hlogging, hservice, hdevice, hfile, huseremote, hdriver, hany⟩
    exact ⟨⟨hmetadata, hlogging⟩, ⟨hfile, huseremote⟩, hservice, hdevice, ⟨hany, hdriver⟩, trivial⟩

/-- There is no logging endpoint in `Clients`. -/
theorem not_showsEndpoints {c : EdgexServiceConfig} {doc : Json}
    (h : edgexDeviceHandlerConfig c = .ok doc) : ¬ ShowsEndpoints doc c.endpoints := by
  obtain ⟨labels, service, -, -, rfl⟩ := edgexDeviceHandlerConfig_eq_ok.mp h
  rintro ⟨-, -, client, hclient, -⟩
  generalize driverValue c.driverconf = driver at hclient
  cases driver with
  | none => cases hclient
  | some driver => cases hclient

/-- Configurations that are not the same are told apart exactly when their labels are not NULL and
they differ in something that can be shown other than the data endpoint. No document shows every
endpoint under its own key: the logging endpoint takes the place of the data endpoint. -/
theorem configuration_toldApart_iff (c c' : EdgexServiceConfig) :
    (ToldApart c c' ↔
      (¬ SameConfig c c' →
        c.service.labels ≠ none ∧ c'.service.labels ≠ none ∧ ¬ SameShown c c')) ∧
    ∀ doc, edgexDeviceHandlerConfig c = .ok doc → ¬ ShowsEndpoints doc c.endpoints := by
  refine ⟨?_, fun doc h => not_showsEndpoints h⟩
  have hdocument : ∀ c : EdgexServiceConfig, c.service.labels ≠ none →
      ∃ doc, edgexDeviceHandlerConfig c = .ok doc := by
    intro c hne
    obtain ⟨labels, hlabels⟩ := Option.ne_none_iff_exists'.mp hne
    obtain ⟨service, hservice⟩ : ∃ service, serviceValue c.service = .ok service := by
      rw [serviceValue, hlabels]
      exact ⟨_, rfl⟩
    exact ⟨_, edgexDeviceHandlerConfig_eq_ok.mpr ⟨labels, service, hlabels, hservice, rfl⟩⟩
  have hlabels : ∀ (c : EdgexServiceConfig) (doc : Json), edgexDeviceHandlerConfig c = .ok doc →
      c.service.labels ≠ none := by
    intro c doc h
    obtain ⟨labels, service, hlabels, -⟩ := edgexDeviceHandlerConfig_eq_ok.mp h
    rw [hlabels]
    exact Option.some_ne_none labels
  refine forall_congr' fun _ => ?_
  constructor
  · rintro ⟨doc, doc', h, h', hdiffer⟩
    rw [sameJson_configuration_iff h h'] at hdiffer
    exact ⟨hlabels c doc h, hlabels c' doc' h', hdiffer⟩
  · rintro ⟨hne, hne', hdiffer⟩
    obtain ⟨doc, h⟩ := hdocument c hne
    obtain ⟨doc', h'⟩ := hdocument c' hne'
    exact ⟨doc, doc', h, h', fun hsame => hdiffer ((sameJson_configuration_iff h h').mp hsame)⟩

/-- Data on two hosts, metadata and logging on one. -/
def endpointsConfig (host : Text) : EdgexServiceConfig :=
  { halvesConfig with
    endpoints :=
      { data := ⟨some host, 48080⟩
        metadata := ⟨some (lit "localhost"), 48081⟩
        logging := ⟨some (lit "localhost"), 48061⟩ } }

/-- The data hosts are not told apart, and the logging endpoint is not there. -/
theorem endpointsConfig_not_toldApart :
    ¬ ToldApart (endpointsConfig (lit "alpha")) (endpointsConfig (lit "beta")) ∧
    ∃ doc, edgexDeviceHandlerConfig (endpointsConfig (lit "alpha")) = .ok doc ∧
      edgexDeviceHandlerConfig (endpointsConfig (lit "beta")) = .ok doc ∧
      ¬ ShowsEndpoints doc (endpointsConfig (lit "alpha")).endpoints := by
  obtain ⟨doc, halpha, hbeta⟩ : ∃ doc,
      edgexDeviceHandlerConfig (endpointsConfig (lit "alpha")) = .ok doc ∧
        edgexDeviceHandlerConfig (endpointsConfig (lit "beta")) = .ok doc := ⟨_, rfl, rfl⟩
  refine ⟨fun happart => ?_, doc, halpha, hbeta, not_showsEndpoints halpha⟩
  have hdiffer : ¬ SameConfig (endpointsConfig (lit "alpha")) (endpointsConfig (lit "beta")) :=
    fun hsame => absurd hsame.endpoints (by decide)
  obtain ⟨doc₁, doc₂, h₁, h₂, hnot⟩ := happart hdiffer
  refine hnot ((sameJson_configuration_iff h₁ h₂).mpr ?_)
  exact ⟨rfl, rfl, rfl, rfl, rfl, rfl, fun _ => rfl, Iff.rfl⟩

end Zigbee
