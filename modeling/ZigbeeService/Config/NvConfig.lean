-- SUMMARY: The configuration of the service as name/value pairs: writing it, and reading it back (config.c).
import ZigbeeService.Config.Consul
import ZigbeeService.Lib.Number

/-!
# The configuration as pairs

`edgex_device_getConfig` lists the settings of the service for the registry,
`edgex_device_populateConfigNV` sets them from such a list at the next start. The endpoints and the
watchers are touched by neither.
-/

namespace Zigbee

open CLib

/-! ## The configuration -/

/-- `edgex_device_serviceinfo`. `labels` is an array that ends with a NULL; the pointer to it may be
NULL itself. -/
structure EdgexDeviceServiceinfo where
  host : Option Text
  port : UInt16
  connectretries : UInt32
  labels : Option (List Text)
  startupmsg : Option Text
  timeout : UInt32
  checkinterval : Option Text
  deriving DecidableEq

/-- `edgex_device_deviceinfo`. -/
structure EdgexDeviceDeviceinfo where
  datatransform : Bool
  discovery : Bool
  initcmd : Option Text
  initcmdargs : Option Text
  maxcmdops : UInt32
  maxcmdresultlen : UInt32
  removecmd : Option Text
  removecmdargs : Option Text
  profilesdir : Option Text
  sendreadingsonchanged : Bool
  deriving DecidableEq

/-- `edgex_device_logginginfo`; a level is its number. -/
structure EdgexDeviceLogginginfo where
  file : Option Text
  useremote : Bool
  level : Nat
  deriving DecidableEq

/-- `edgex_device_config`. -/
structure EdgexDeviceConfig where
  service : EdgexDeviceServiceinfo
  device : EdgexDeviceDeviceinfo
  logging : EdgexDeviceLogginginfo
  driverconf : NvPairs
  deriving DecidableEq

/-- The configuration of a fresh service: all bytes are zero. -/
def EdgexDeviceConfig.fresh : EdgexDeviceConfig where
  service := ⟨none, 0, 0, none, none, 0, none⟩
  device := ⟨false, false, none, none, 0, 0, none, none, none, false⟩
  logging := ⟨none, false, 0⟩
  driverconf := []

/-! ## Writing -/

def makepair (name value : Text) (list : NvPairs) : NvPairs := (name, value) :: list

/-- `PUT_CONFIG_STRING`. -/
def putConfigString (name : Text) (y : Option Text) (result : NvPairs) : NvPairs :=
  match y with
  | none => result
  | some value => makepair name value result

/-- `PUT_CONFIG_UINT`. -/
def putConfigUint (name : Text) (y : Nat) (result : NvPairs) : Checked NvPairs := do
  let buf ← sprintf 32 (decimal y)
  .ok (makepair name buf result)

def boolText (y : Bool) : Text := if y then lit "true" else lit "false"

/-- `PUT_CONFIG_BOOL`. -/
def putConfigBool (name : Text) (y : Bool) (result : NvPairs) : NvPairs :=
  makepair name (boolText y) result

/-- The room for all labels, each with one byte more, counted in an `int`. -/
def labellen (labels : List Text) : Int :=
  labels.foldl (fun labellen label => toInt32 (labellen + (label.length + 1))) 0

/-- The labels, put together in a buffer of `cap` bytes. -/
def joinLabels (cap : Nat) : List Text → Checked Text
  | [] => .ok []
  | label :: labels => do
    let text ← strcat cap [] label
    labels.foldlM (fun text label => do
      let text ← strcat cap text (lit ",")
      strcat cap text label) text

/-- The part of `edgex_device_getConfig` that puts the labels. A negative length is a huge one for
`malloc`, which returns NULL. -/
def putLabels (labels : Option (List Text)) (result : NvPairs) : Checked NvPairs :=
  match labels with
  | none => .error .nullPointer
  | some labels =>
    if labellen labels = 0 then .ok result
    else if labellen labels < 0 then .error .nullPointer
    else do
      let text ← joinLabels (labellen labels).toNat labels
      .ok (makepair (lit "Service/Labels") text result)

/-- One round of the loop over the driver's settings. -/
def putDriver (result : NvPairs) (iter : Text × Text) : Checked NvPairs := do
  let name ← sprintf (iter.1.length + (lit "Driver/").length + 1) (lit "Driver/" ++ iter.1)
  .ok ((name, iter.2) :: result)

/-- `edgex_device_getConfig`. The name of a level comes from the logger. -/
def edgexDeviceGetConfig (iotLoggerLevelname : Nat → Text) (config : EdgexDeviceConfig) :
    Checked NvPairs := do
  let result := putConfigString (lit "Service/Host") config.service.host []
  let result ← putConfigUint (lit "Service/Port") config.service.port.toNat result
  let result ← putConfigUint (lit "Service/Timeout") config.service.timeout.toNat result
  let result ←
    putConfigUint (lit "Service/ConnectRetries") config.service.connectretries.toNat result
  let result := putConfigString (lit "Service/StartupMsg") config.service.startupmsg result
  let result := putConfigString (lit "Service/CheckInterval") config.service.checkinterval result
  let result ← putLabels config.service.labels result
  let result := putConfigBool (lit "Device/DataTransform") config.device.datatransform result
  let result := putConfigBool (lit "Device/Discovery") config.device.discovery result
  let result := putConfigString (lit "Device/InitCmd") config.device.initcmd result
  let result := putConfigString (lit "Device/InitCmdArgs") config.device.initcmdargs result
  let result ← putConfigUint (lit "Device/MaxCmdOps") config.device.maxcmdops.toNat result
  let result ←
    putConfigUint (lit "Device/MaxCmdResultLen") config.device.maxcmdresultlen.toNat result
  let result := putConfigString (lit "Device/RemoveCmd") config.device.removecmd result
  let result := putConfigString (lit "Device/RemoveCmdArgs") config.device.removecmdargs result
  let result := putConfigString (lit "Device/ProfilesDir") config.device.profilesdir result
  let result :=
    putConfigBool (lit "Device/SendReadingsOnChanged") config.device.sendreadingsonchanged result
  let result ← config.driverconf.foldlM putDriver result
  let result := putConfigBool (lit "Logging/EnableRemote") config.logging.useremote result
  let result := putConfigString (lit "Logging/File") config.logging.file result
  .ok (makepair (lit "Writable/LogLevel") (iotLoggerLevelname config.logging.level) result)

/-! ## Reading -/

/-- `get_nv_config_string`. -/
def getNvConfigString (config : NvPairs) (key : Text) : Option Text :=
  (config.find? fun iter => strcaseeq iter.1 key).map Prod.snd

/-- `get_nv_config_uint16` and `get_nv_config_uint32`: a number up to `max`, and the error. -/
def getNvConfigUint (max : Nat) (config : NvPairs) (key : Text) (err : Option EdgexError) :
    Nat × Option EdgexError :=
  match getNvConfigString config key with
  | none => (0, err)
  | some value =>
    match strtoull0 value with
    | none => (0, some .EDGEX_BAD_CONFIG)
    | some tmp => if tmp ≤ max then (tmp, err) else (0, some .EDGEX_BAD_CONFIG)

/-- `get_nv_config_uint32`. -/
def getNvConfigUint32 (config : NvPairs) (key : Text) (err : Option EdgexError) :
    UInt32 × Option EdgexError :=
  let tmp := getNvConfigUint (2 ^ 32 - 1) config key err
  (UInt32.ofNat tmp.1, tmp.2)

/-- `get_nv_config_uint16`. -/
def getNvConfigUint16 (config : NvPairs) (key : Text) (err : Option EdgexError) :
    UInt16 × Option EdgexError :=
  let tmp := getNvConfigUint (2 ^ 16 - 1) config key err
  (UInt16.ofNat tmp.1, tmp.2)

/-- `get_nv_config_bool`. -/
def getNvConfigBool (config : NvPairs) (key : Text) (dfl : Bool) : Bool :=
  match getNvConfigString config key with
  | none => dfl
  | some value => strcaseeq value (lit "true")

/-- The labels in a text. The array has a place more than there are pieces, and the first token is
copied before it is known whether there is one. -/
def splitLabels (lstr : Text) : Checked (List Text) :=
  let n := lstr.count (chr ',') + 1
  if 2 ^ 31 ≤ n + 1 then .error .intOverflow
  else
    match strtokAll (chr ',') lstr with
    | [] => .error .nullPointer
    | tokens => if tokens.length + 1 ≤ n + 1 then .ok tokens else .error .outOfBounds

/-- The labels that are set: none without a text. -/
def getLabels (lstr : Option Text) : Checked (List Text) :=
  match lstr with
  | none => .ok []
  | some lstr => splitLabels lstr

/-- One round of the loop that collects the driver's settings. -/
def addDriver (driverconf : NvPairs) (iter : Text × Text) : NvPairs :=
  if lit "Driver/" <+: iter.1 then
    makepair (iter.1.drop (lit "Driver/").length) iter.2 driverconf
  else driverconf

/-- `edgex_device_populateConfigNV`. -/
def edgexDevicePopulateConfigNV (svc : EdgexDeviceConfig) (config : NvPairs)
    (err : Option EdgexError) : Checked (EdgexDeviceConfig × Option EdgexError) := do
  let host := getNvConfigString config (lit "Service/Host")
  let (port, err) := getNvConfigUint16 config (lit "Service/Port") err
  let (timeout, err) := getNvConfigUint32 config (lit "Service/Timeout") err
  let (connectretries, err) := getNvConfigUint32 config (lit "Service/ConnectRetries") err
  let startupmsg := getNvConfigString config (lit "Service/StartupMsg")
  let checkinterval := getNvConfigString config (lit "Service/CheckInterval")
  let labels ← getLabels (getNvConfigString config (lit "Service/Labels"))
  let datatransform := getNvConfigBool config (lit "Device/DataTransform") true
  let discovery := getNvConfigBool config (lit "Device/Discovery") true
  let initcmd := getNvConfigString config (lit "Device/InitCmd")
  let initcmdargs := getNvConfigString config (lit "Device/InitCmdArgs")
  let (maxcmdops, err) := getNvConfigUint32 config (lit "Device/MaxCmdOps") err
  let (maxcmdresultlen, err) := getNvConfigUint32 config (lit "Device/MaxCmdResultLen") err
  let removecmd := getNvConfigString config (lit "Device/RemoveCmd")
  let removecmdargs := getNvConfigString config (lit "Device/RemoveCmdArgs")
  let profilesdir := getNvConfigString config (lit "Device/ProfilesDir")
  let sendreadingsonchanged := getNvConfigBool config (lit "Device/SendReadingsOnChanged") false
  let driverconf := config.foldl addDriver svc.driverconf
  let useremote := getNvConfigBool config (lit "Logging/EnableRemote") false
  let file := getNvConfigString config (lit "Logging/File")
  .ok
    ({ service :=
        { host, port, connectretries, labels := some labels, startupmsg, timeout, checkinterval }
       device :=
        { datatransform, discovery, initcmd, initcmdargs, maxcmdops, maxcmdresultlen, removecmd,
          removecmdargs, profilesdir, sendreadingsonchanged }
       logging := { file, useremote, level := svc.logging.level }
       driverconf }, err)

end Zigbee
