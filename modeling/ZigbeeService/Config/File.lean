-- SUMMARY: The configuration from the file (config.c), and which of its service labels come back from the registry.
import ZigbeeService.Config.NvRoundTrip

/-!
# The configuration file

`edgex_device_populateConfig` sets up the service from a parsed TOML document. The TOML library is
not part of the repository: its accessors are read off the document, its conversions are a
parameter. The watchers are only checked, as far as they can fail the configuration.
-/

namespace Zigbee

open CLib

-- ---------------------------------------------------------------------------
-- Documents
-- ---------------------------------------------------------------------------

/-- What a key leads to: a value, which `toml.h` gives as raw text, an array, or a table. -/
inductive Toml where
  | raw (src : Text)
  | array (elems : List Toml)
  | table (entries : List (Text × Toml))

/-- `toml_table_t`, with the keys in the order of `toml_key_in`. -/
abbrev TomlTable := List (Text × Toml)

/-- The conversions of a raw text: nothing where they return -1. -/
structure TomlLib where
  rtos : Text → Option Text
  rtob : Text → Option Bool
  rtoi : Text → Option Int

/-- `toml_raw_in`. -/
def tomlRawIn (table : TomlTable) (key : Text) : Option Text :=
  match assocGet key table with
  | some (.raw src) => some src
  | _ => none

/-- `toml_array_in`. -/
def tomlArrayIn (table : TomlTable) (key : Text) : Option (List Toml) :=
  match assocGet key table with
  | some (.array elems) => some elems
  | _ => none

/-- `toml_table_in`. -/
def tomlTableIn (table : TomlTable) (key : Text) : Option TomlTable :=
  match assocGet key table with
  | some (.table entries) => some entries
  | _ => none

/-- What `toml_raw_at` gives for the indexes from 0 on until it gives NULL. -/
def tomlRaws : List Toml → List Text
  | .raw src :: arr => src :: tomlRaws arr
  | _ => []

/-- What `toml_table_at` gives for the indexes from 0 on until it gives NULL. -/
def tomlTables : List Toml → List TomlTable
  | .table entries :: arr => entries :: tomlTables arr
  | _ => []

-- ---------------------------------------------------------------------------
-- The configuration
-- ---------------------------------------------------------------------------

/-- `edgex_device_service_endpoint`. -/
structure EdgexDeviceServiceEndpoint where
  host : Option Text
  port : UInt16
  deriving DecidableEq

/-- `edgex_service_endpoints`. -/
structure EdgexServiceEndpoints where
  data : EdgexDeviceServiceEndpoint
  metadata : EdgexDeviceServiceEndpoint
  logging : EdgexDeviceServiceEndpoint
  deriving DecidableEq

/-- `edgex_device_config` with the endpoints. -/
structure EdgexServiceConfig extends EdgexDeviceConfig where
  endpoints : EdgexServiceEndpoints
  deriving DecidableEq

/-- The configuration of a fresh service: all bytes are zero. -/
def EdgexServiceConfig.fresh : EdgexServiceConfig where
  toEdgexDeviceConfig := .fresh
  endpoints := ⟨⟨none, 0⟩, ⟨none, 0⟩, ⟨none, 0⟩⟩

/-- The strings of an array as its readers see them, up to the first NULL. -/
def upToNull : List (Option Text) → List Text
  | some s :: a => s :: upToNull a
  | _ => []

-- ---------------------------------------------------------------------------
-- Reading the document
-- ---------------------------------------------------------------------------

section Populate

variable (lib : TomlLib)

/-- A block of code about a table, if that is there. -/
def ifTable {α : Type} (table : Option TomlTable) (a : α) (f : TomlTable → Checked α) :
    Checked α :=
  match table with
  | none => .ok a
  | some table => f table

/-- `toml_rtos2`. The place is as it was where `toml_rtos` fails. -/
def tomlRtos2 (s : Option Text) (ret : Option Text) : Option Text :=
  match s with
  | none => ret
  | some s =>
    let ret := (lib.rtos s).or ret
    if ret = some [] then none else ret

/-- `toml_rtos2` of a text that is there, into fresh memory. -/
def tomlRtos2Fresh (s : Text) : Checked (Option Text) :=
  match lib.rtos s with
  | none => .error .uninitialised
  | some ret => .ok (if ret = [] then none else some ret)

/-- `toml_rtob2`. -/
def tomlRtob2 (raw : Option Text) (ret : Bool) : Checked Bool :=
  match raw with
  | none => .ok ret
  | some raw =>
    match lib.rtob raw with
    | none => .error .uninitialised
    | some dummy => .ok dummy

/-- `toml_rtoui16` and `toml_rtoui32`: a number up to `max`, and the error. -/
def tomlRtoui (max : Nat) (raw : Option Text) (ret : Nat) (err : Option EdgexError) :
    Nat × Option EdgexError :=
  match raw with
  | none => (ret, err)
  | some raw =>
    match lib.rtoi raw with
    | none => (ret, some .EDGEX_BAD_CONFIG)
    | some dummy =>
      if 0 ≤ dummy ∧ dummy ≤ max then (dummy.toNat, err) else (ret, some .EDGEX_BAD_CONFIG)

/-- `toml_rtoui16`. -/
def tomlRtoui16 (raw : Option Text) (ret : UInt16) (err : Option EdgexError) :
    UInt16 × Option EdgexError :=
  let tmp := tomlRtoui lib (2 ^ 16 - 1) raw ret.toNat err
  (UInt16.ofNat tmp.1, tmp.2)

/-- `toml_rtoui32`. -/
def tomlRtoui32 (raw : Option Text) (ret : UInt32) (err : Option EdgexError) :
    UInt32 × Option EdgexError :=
  let tmp := tomlRtoui lib (2 ^ 32 - 1) raw ret.toNat err
  (UInt32.ofNat tmp.1, tmp.2)

/-- An array of strings, with a NULL behind the last. They are counted in an `int`. -/
def tomlStrings (arr : Option (List Toml)) : Checked (List (Option Text)) :=
  let raws := tomlRaws (arr.getD [])
  if 2 ^ 31 ≤ raws.length + 1 then .error .intOverflow
  else do
    let strings ← raws.mapM (tomlRtos2Fresh lib)
    .ok (strings ++ [none])

/-- The table `Service`. -/
def populateService (service : EdgexDeviceServiceinfo) (table : TomlTable)
    (err : Option EdgexError) : Checked (EdgexDeviceServiceinfo × Option EdgexError) := do
  let host := tomlRtos2 lib (tomlRawIn table (lit "Host")) service.host
  let (port, err) := tomlRtoui16 lib (tomlRawIn table (lit "Port")) service.port err
  let (timeout, err) := tomlRtoui32 lib (tomlRawIn table (lit "Timeout")) service.timeout err
  let (connectretries, err) :=
    tomlRtoui32 lib (tomlRawIn table (lit "ConnectRetries")) service.connectretries err
  let startupmsg := tomlRtos2 lib (tomlRawIn table (lit "StartupMsg")) service.startupmsg
  let checkinterval := tomlRtos2 lib (tomlRawIn table (lit "CheckInterval")) service.checkinterval
  let labels ← tomlStrings lib (tomlArrayIn table (lit "Labels"))
  .ok ({ host, port, connectretries, labels := some (upToNull labels), startupmsg, timeout,
         checkinterval }, err)

/-- A table of `Clients`. -/
def populateEndpoint (endpoint : EdgexDeviceServiceEndpoint) (table : Option TomlTable)
    (err : Option EdgexError) : EdgexDeviceServiceEndpoint × Option EdgexError :=
  match table with
  | none => (endpoint, err)
  | some table =>
    let host := tomlRtos2 lib (tomlRawIn table (lit "Host")) endpoint.host
    let (port, err) := tomlRtoui16 lib (tomlRawIn table (lit "Port")) endpoint.port err
    (⟨host, port⟩, err)

/-- The table `Clients`. -/
def populateClients (endpoints : EdgexServiceEndpoints) (subtable : TomlTable)
    (err : Option EdgexError) : EdgexServiceEndpoints × Option EdgexError :=
  let (data, err) := populateEndpoint lib endpoints.data (tomlTableIn subtable (lit "Data")) err
  let (metadata, err) :=
    populateEndpoint lib endpoints.metadata (tomlTableIn subtable (lit "Metadata")) err
  let (logging, err) :=
    populateEndpoint lib endpoints.logging (tomlTableIn subtable (lit "Logging")) err
  (⟨data, metadata, logging⟩, err)

/-- The table `Device`. -/
def populateDevice (device : EdgexDeviceDeviceinfo) (table : TomlTable)
    (err : Option EdgexError) : Checked (EdgexDeviceDeviceinfo × Option EdgexError) := do
  let datatransform ←
    tomlRtob2 lib (tomlRawIn table (lit "DataTransform")) device.datatransform
  let discovery ← tomlRtob2 lib (tomlRawIn table (lit "Discovery")) device.discovery
  let initcmd := tomlRtos2 lib (tomlRawIn table (lit "InitCmd")) device.initcmd
  let initcmdargs := tomlRtos2 lib (tomlRawIn table (lit "InitCmdArgs")) device.initcmdargs
  let (maxcmdops, err) :=
    tomlRtoui32 lib (tomlRawIn table (lit "MaxCmdOps")) device.maxcmdops err
  let (maxcmdresultlen, err) :=
    tomlRtoui32 lib (tomlRawIn table (lit "MaxCmdResultLen")) device.maxcmdresultlen err
  let removecmd := tomlRtos2 lib (tomlRawIn table (lit "RemoveCmd")) device.removecmd
  let removecmdargs :=
    tomlRtos2 lib (tomlRawIn table (lit "RemoveCmdArgs")) device.removecmdargs
  let profilesdir := tomlRtos2 lib (tomlRawIn table (lit "ProfilesDir")) device.profilesdir
  let sendreadingsonchanged ←
    tomlRtob2 lib (tomlRawIn table (lit "SendReadingsOnChanged")) device.sendreadingsonchanged
  .ok ({ datatransform, discovery, initcmd, initcmdargs, maxcmdops, maxcmdresultlen, removecmd,
         removecmdargs, profilesdir, sendreadingsonchanged }, err)

/-- The table `Driver`: the settings, and whether all keys led to values. The function ends at the
first that does not. -/
def populateDriver : TomlTable → NvPairs → NvPairs × Bool
  | [], driverconf => (driverconf, true)
  | (key, .raw raw) :: table, driverconf =>
    populateDriver table ((key, (lib.rtos raw).getD raw) :: driverconf)
  | _ :: _, driverconf => (driverconf, false)

/-- `edgex_config_setloglevel`, with the levels from `TRACE` to `ERROR`. -/
def edgexConfigSetloglevel (levels : List Nat) (iotLoggerLevelname : Nat → Text) (lstr : Text)
    (result : Nat) : Nat :=
  (levels.find? fun l => strcaseeq lstr (iotLoggerLevelname l)).getD result

/-- The table `Logging`. -/
def populateLogging (levels : List Nat) (iotLoggerLevelname : Nat → Text)
    (logging : EdgexDeviceLogginginfo) (table : TomlTable) : Checked EdgexDeviceLogginginfo := do
  let useremote ← tomlRtob2 lib (tomlRawIn table (lit "EnableRemote")) logging.useremote
  let file := tomlRtos2 lib (tomlRawIn table (lit "File")) logging.file
  let level :=
    match tomlRtos2 lib (tomlRawIn table (lit "LogLevel")) none with
    | none => logging.level
    | some levelstr => edgexConfigSetloglevel levels iotLoggerLevelname levelstr logging.level
  .ok { file, useremote, level }

/-- One table of `Watchers`: name, profile and key must be there. -/
def checkWatcher (err : Option EdgexError) (table : TomlTable) : Checked (Option EdgexError) := do
  let namestr := tomlRtos2 lib (tomlRawIn table (lit "Name")) none
  let profile := tomlRtos2 lib (tomlRawIn table (lit "DeviceProfile")) none
  let key := tomlRtos2 lib (tomlRawIn table (lit "Key")) none
  let _ids ← tomlStrings lib (tomlArrayIn table (lit "Identifiers"))
  .ok (if namestr.isSome ∧ profile.isSome ∧ key.isSome then err else some .EDGEX_BAD_CONFIG)

/-- `edgex_device_populateConfig`. -/
def edgexDevicePopulateConfig (levels : List Nat) (iotLoggerLevelname : Nat → Text)
    (svc : EdgexServiceConfig) (config : TomlTable) (err : Option EdgexError) :
    Checked (EdgexServiceConfig × Option EdgexError) := do
  let device := { svc.device with datatransform := true, discovery := true }
  let (service, err) ← ifTable (tomlTableIn config (lit "Service")) (svc.service, err)
    fun table => populateService lib svc.service table err
  let (endpoints, err) ← ifTable (tomlTableIn config (lit "Clients")) (svc.endpoints, err)
    fun subtable => .ok (populateClients lib svc.endpoints subtable err)
  let (device, err) ← ifTable (tomlTableIn config (lit "Device")) (device, err)
    fun table => populateDevice lib device table err
  let (driverconf, allvalues) ← ifTable (tomlTableIn config (lit "Driver"))
    (svc.driverconf, true) fun table => .ok (populateDriver lib table svc.driverconf)
  if allvalues = false then
    .ok (⟨⟨service, device, svc.logging, driverconf⟩, endpoints⟩, some .EDGEX_BAD_CONFIG)
  else do
    let logging ← ifTable (tomlTableIn config (lit "Logging")) svc.logging
      fun table => populateLogging lib levels iotLoggerLevelname svc.logging table
    let watchers := tomlTables ((tomlArrayIn config (lit "Watchers")).getD [])
    let err ← watchers.foldlM (checkWatcher lib) err
    .ok (⟨⟨service, device, logging, driverconf⟩, endpoints⟩, err)

end Populate

-- ---------------------------------------------------------------------------
-- The labels of the service
-- ---------------------------------------------------------------------------

section Labels

variable {lib : TomlLib} {config : TomlTable}

/-- The raw texts of the labels in the file: none without a table `Service` or an array in it. -/
def rawLabels (config : TomlTable) : List Text :=
  match tomlTableIn config (lit "Service") with
  | none => []
  | some table => tomlRaws ((tomlArrayIn table (lit "Labels")).getD [])

/-- The labels in the file. -/
def fileLabels (lib : TomlLib) (config : TomlTable) : List Text :=
  (rawLabels config).filterMap lib.rtos

/-- The pairs of a configuration set up a fresh service with these labels, without an error. -/
def LabelsSurvive (iotLoggerLevelname : Nat → Text) (c : EdgexDeviceConfig) (labels : List Text) :
    Prop :=
  ∃ pairs, edgexDeviceGetConfig iotLoggerLevelname c = .ok pairs ∧
    ∃ c', edgexDevicePopulateConfigNV .fresh pairs none = .ok (c', none) ∧
      c'.service.labels = some labels

/-- What the readers see of the labels ends at the first empty one. -/
theorem upToNull_tomlStrings {raws : List Text} {strings : List (Option Text)}
    (h : raws.mapM (tomlRtos2Fresh lib) = .ok strings) :
    upToNull (strings ++ [none]) = (raws.filterMap lib.rtos).takeWhile (· ≠ []) := by
  induction raws generalizing strings with
  | nil =>
    cases h
    rfl
  | cons raw raws ih =>
    rw [List.mapM_cons, Checked.bind_eq_ok] at h
    obtain ⟨label, hlabel, h⟩ := h
    obtain ⟨rest, hrest, h⟩ := Checked.bind_eq_ok.mp h
    cases h
    rw [tomlRtos2Fresh] at hlabel
    cases hraw : lib.rtos raw with
    | none =>
      rw [hraw] at hlabel
      cases hlabel
    | some s =>
      rw [hraw] at hlabel
      cases hlabel
      rw [List.filterMap_cons_some hraw]
      by_cases hempty : s = []
      · subst hempty
        rfl
      · have hkept : (s :: raws.filterMap lib.rtos).takeWhile (· ≠ []) =
            s :: (raws.filterMap lib.rtos).takeWhile (· ≠ []) := by
          simp [hempty]
        rw [if_neg hempty, hkept, ← ih hrest]
        rfl

/-- The labels that an accepted file sets up. -/
theorem populateService_labels {service service' : EdgexDeviceServiceinfo} {table : TomlTable}
    {err err' : Option EdgexError}
    (h : populateService lib service table err = .ok (service', err')) :
    service'.labels = some (((tomlRaws ((tomlArrayIn table (lit "Labels")).getD [])).filterMap
      lib.rtos).takeWhile (· ≠ [])) := by
  rw [populateService] at h
  obtain ⟨labels, hlabels, h⟩ := Checked.bind_eq_ok.mp h
  cases h
  rw [tomlStrings] at hlabels
  split at hlabels
  · cases hlabels
  · obtain ⟨strings, hstrings, hlabels⟩ := Checked.bind_eq_ok.mp hlabels
    cases hlabels
    exact congrArg some (upToNull_tomlStrings hstrings)

/-- Without a table `Service` the labels stay NULL; with one they end at the first empty one. -/
theorem edgexDevicePopulateConfig_labels {levels : List Nat} {iotLoggerLevelname : Nat → Text}
    {svc svc' : EdgexServiceConfig} {err err' : Option EdgexError}
    (h : edgexDevicePopulateConfig lib levels iotLoggerLevelname svc config err =
      .ok (svc', err')) :
    svc'.service.labels =
      if (tomlTableIn config (lit "Service")).isSome then
        some ((fileLabels lib config).takeWhile (· ≠ []))
      else svc.service.labels := by
  rw [edgexDevicePopulateConfig] at h
  obtain ⟨⟨service, err₁⟩, hservice, h⟩ := Checked.bind_eq_ok.mp h
  obtain ⟨⟨endpoints, err₂⟩, -, h⟩ := Checked.bind_eq_ok.mp h
  obtain ⟨⟨device, err₃⟩, -, h⟩ := Checked.bind_eq_ok.mp h
  obtain ⟨⟨driverconf, allvalues⟩, -, h⟩ := Checked.bind_eq_ok.mp h
  have hkept : svc'.service = service := by
    by_cases hstop : allvalues = false
    · simp only [if_pos hstop] at h
      cases h
      rfl
    · simp only [if_neg hstop] at h
      obtain ⟨logging, -, h⟩ := Checked.bind_eq_ok.mp h
      obtain ⟨err₄, -, h⟩ := Checked.bind_eq_ok.mp h
      cases h
      rfl
  rw [hkept, fileLabels, rawLabels]
  cases htable : tomlTableIn config (lit "Service") with
  | none =>
    rw [htable] at hservice
    cases hservice
    rfl
  | some table =>
    rw [htable] at hservice
    exact populateService_labels hservice

/-- Labels are put and come back the same exactly when none of them is empty or has a comma, and
the room for them can be counted. -/
theorem labelsSurvive_some_iff {iotLoggerLevelname : Nat → Text} {c : EdgexDeviceConfig}
    {labels : List Text} (h : c.service.labels = some (labels.takeWhile (· ≠ []))) :
    LabelsSurvive iotLoggerLevelname c labels ↔
      (∀ label ∈ labels, label ≠ [] ∧ chr ',' ∉ label) ∧ labelSpace labels < 2 ^ 31 := by
  constructor
  · rintro ⟨pairs, hget, c', hpopulate, hlabels⟩
    obtain ⟨shown, hshown, hfit, rfl⟩ := edgexDeviceGetConfig_eq_ok.mp hget
    cases h.symm.trans hshown
    rw [edgexDevicePopulateConfigNV_eq] at hpopulate
    obtain ⟨tokens, htokens, hback⟩ := Checked.bind_eq_ok.mp hpopulate
    cases hback
    cases hlabels
    by_cases hzero : labelSpace (labels.takeWhile (· ≠ [])) % 2 ^ 32 = 0
    · -- no label is put, so there was none
      rw [labelsText, if_pos hzero] at htokens
      cases htokens
      exact ⟨List.forall_mem_nil _, by decide⟩
    · have hspace := hfit.resolve_left hzero
      have hne : labels.takeWhile (· ≠ []) ≠ [] := by
        intro hnil
        exact hzero (by rw [hnil]; rfl)
      have hlen := length_intercalate_labels hne
      rw [labelsText, if_neg hzero, getLabels] at htokens
      obtain ⟨htokens, -⟩ := (splitLabels_eq_ok (by omega)).mp htokens
      have hclean : ∀ label ∈ labels, label ≠ [] ∧ chr ',' ∉ label := by
        intro label hlabel
        rw [htokens, strtokAll] at hlabel
        obtain ⟨hpiece, hkept⟩ := List.mem_filter.mp hlabel
        exact ⟨of_decide_eq_true hkept, notMem_of_mem_splitOn hpiece⟩
      have hall : labels.takeWhile (· ≠ []) = labels :=
        List.takeWhile_eq_self_iff.mpr fun label hlabel => decide_eq_true (hclean label hlabel).1
      rw [hall] at hspace
      exact ⟨hclean, hspace⟩
  · rintro ⟨hclean, hspace⟩
    have hall : labels.takeWhile (· ≠ []) = labels :=
      List.takeWhile_eq_self_iff.mpr fun label hlabel => decide_eq_true (hclean label hlabel).1
    rw [hall] at h
    refine ⟨_, edgexDeviceGetConfig_eq_ok.mpr ⟨labels, h, .inr hspace, rfl⟩, c.readBack labels, ?_,
      rfl⟩
    rw [edgexDevicePopulateConfigNV_eq, getLabels_labelsText hspace hclean]
    rfl

end Labels

/-- The labels of an accepted file come back from the registry exactly when it has a table
`Service`, none of its labels is empty or has a comma, and the room for them fits an `int`. Without
the table the labels are NULL, and listing the configuration follows that. -/
theorem fileLabels_survive_iff {lib : TomlLib} {levels : List Nat}
    {iotLoggerLevelname : Nat → Text} {config : TomlTable} {svc : EdgexServiceConfig}
    (h : edgexDevicePopulateConfig lib levels iotLoggerLevelname .fresh config none =
      .ok (svc, none)) :
    LabelsSurvive iotLoggerLevelname svc.toEdgexDeviceConfig (fileLabels lib config) ↔
      (tomlTableIn config (lit "Service")).isSome ∧
        (∀ label ∈ fileLabels lib config, label ≠ [] ∧ chr ',' ∉ label) ∧
        labelSpace (fileLabels lib config) < 2 ^ 31 := by
  have hlabels := edgexDevicePopulateConfig_labels h
  by_cases htable : (tomlTableIn config (lit "Service")).isSome
  · rw [if_pos htable] at hlabels
    rw [labelsSurvive_some_iff hlabels, and_iff_right htable]
  · rw [if_neg htable] at hlabels
    refine iff_of_false ?_ fun hand => htable hand.1
    rintro ⟨pairs, hget, -⟩
    obtain ⟨labels, hsome, -⟩ := edgexDeviceGetConfig_eq_ok.mp hget
    cases hlabels.symm.trans hsome

-- ---------------------------------------------------------------------------
-- Two files
-- ---------------------------------------------------------------------------

/-- The conversions on plain texts: strings in double quotes without escapes, the two truth values,
and decimal numbers. -/
def plainToml : TomlLib where
  rtos s :=
    if 2 ≤ s.length ∧ s.head? = some (chr '"') ∧ s.getLast? = some (chr '"') then
      some s.tail.dropLast
    else none
  rtob s := if s = lit "true" then some true else if s = lit "false" then some false else none
  rtoi s := (numeralIn 10 s).map Int.ofNat

/-- A file with labels and a port. -/
def labelsFile (labels : List Text) : TomlTable :=
  [(lit "Service", .table
    [(lit "Port", .raw (lit "49990")), (lit "Labels", .array (labels.map .raw))])]

/-- What is set up from a file, if it is accepted. -/
def acceptedConfig (config : TomlTable) : Option EdgexServiceConfig :=
  match edgexDevicePopulateConfig plainToml [0, 1] (fun _ => lit "INFO") .fresh config none with
  | .ok (svc, none) => some svc
  | _ => none

theorem acceptedConfig_eq_some {config : TomlTable} {svc : EdgexServiceConfig}
    (h : acceptedConfig config = some svc) :
    edgexDevicePopulateConfig plainToml [0, 1] (fun _ => lit "INFO") .fresh config none =
      .ok (svc, none) := by
  unfold acceptedConfig at h
  split at h
  · next heq =>
    cases h
    exact heq
  · cases h

/-- The labels of a plain file come back. -/
theorem fileLabels_survive_random :
    ∃ svc, acceptedConfig (labelsFile [lit "\"Random\"", lit "\"Zigbee\""]) = some svc ∧
      LabelsSurvive (fun _ => lit "INFO") svc.toEdgexDeviceConfig
        [lit "Random", lit "Zigbee"] := by
  have hsome : (acceptedConfig (labelsFile [lit "\"Random\"", lit "\"Zigbee\""])).isSome := by
    decide +kernel
  obtain ⟨svc, hsvc⟩ := Option.isSome_iff_exists.mp hsome
  refine ⟨svc, hsvc, (fileLabels_survive_iff (acceptedConfig_eq_some hsvc)).mpr ?_⟩
  decide +kernel

/-- The configuration of an empty file. -/
def emptyConfig : EdgexServiceConfig :=
  { EdgexServiceConfig.fresh with
    device := { EdgexServiceConfig.fresh.device with datatransform := true, discovery := true } }

/-- The configuration of a file with one label that has a comma. -/
def halvesConfig : EdgexServiceConfig :=
  { emptyConfig with
    service := { emptyConfig.service with port := 49990, labels := some [lit "Two,halves"] } }

/-- Without a table `Service` the configuration cannot be listed, and a label with a comma comes
back as two. -/
theorem fileLabels_lost :
    (acceptedConfig [] = some emptyConfig ∧
      edgexDeviceGetConfig (fun _ => lit "INFO") emptyConfig.toEdgexDeviceConfig =
        .error .nullPointer ∧
      ¬ LabelsSurvive (fun _ => lit "INFO") emptyConfig.toEdgexDeviceConfig []) ∧
    (acceptedConfig (labelsFile [lit "\"Two,halves\""]) = some halvesConfig ∧
      ∃ pairs, edgexDeviceGetConfig (fun _ => lit "INFO") halvesConfig.toEdgexDeviceConfig =
          .ok pairs ∧
        getLabels (getNvConfigString pairs (lit "Service/Labels")) =
          .ok [lit "Two", lit "halves"] ∧
      ¬ LabelsSurvive (fun _ => lit "INFO") halvesConfig.toEdgexDeviceConfig
        [lit "Two,halves"]) := by
  have hnull : edgexDeviceGetConfig (fun _ => lit "INFO") emptyConfig.toEdgexDeviceConfig =
      .error .nullPointer := by decide +kernel
  have hpairs : edgexDeviceGetConfig (fun _ => lit "INFO") halvesConfig.toEdgexDeviceConfig =
      .ok _ := edgexDeviceGetConfig_eq_ok.mpr ⟨[lit "Two,halves"], rfl, .inr (by decide), rfl⟩
  refine ⟨⟨by decide +kernel, hnull, ?_⟩, by decide +kernel, _, hpairs, by decide +kernel, ?_⟩
  · rintro ⟨pairs, hget, -⟩
    cases hnull.symm.trans hget
  · rw [labelsSurvive_some_iff (by decide)]
    decide

end Zigbee
