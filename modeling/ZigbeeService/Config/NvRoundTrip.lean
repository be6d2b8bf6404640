-- SUMMARY: The configuration as pairs, written and read back: what survives, and which labels do not.
import Mathlib.Data.List.Count
import Mathlib.Data.List.Nodup
import ZigbeeService.Config.NvConfig

/-!
# The configuration through the registry

The pairs of a configuration come from a list of settings, each with a key of its own, and the
settings of the driver between them. Every setting is looked up as it was put. The labels are joined
with commas in a buffer that is counted in an `int`, and split again with `strtok_r`.
-/

namespace Zigbee

open CLib

/-! ## What is put, row by row -/

/-- A setting before it is put: its key, and its value if it has one. -/
abbrev Row := Text × Option Text

/-- The pairs of some settings, the last one first. -/
def pairsOf (rows : List Row) : NvPairs :=
  rows.foldl (fun result row => putConfigString row.1 row.2 result) []

theorem pairsOf_eq (rows : List Row) :
    pairsOf rows = (rows.filterMap fun row => row.2.map (row.1, ·)).reverse := by
  have hfold : ∀ result : NvPairs,
      rows.foldl (fun result row => putConfigString row.1 row.2 result) result =
        (rows.filterMap fun row => row.2.map (row.1, ·)).reverse ++ result := by
    induction rows with
    | nil => exact fun _ => rfl
    | cons row rows ih =>
      intro result
      obtain ⟨key, value⟩ := row
      cases value with
      | none => exact ih result
      | some value =>
        rw [List.foldl_cons, ih]
        simp [putConfigString, makepair]
  rw [pairsOf, hfold, List.append_nil]

theorem mem_pairsOf {rows : List Row} {key value : Text} :
    (key, value) ∈ pairsOf rows ↔ (key, some value) ∈ rows := by
  rw [pairsOf_eq, List.mem_reverse, List.mem_filterMap]
  constructor
  · rintro ⟨⟨k, v⟩, hmem, hrow⟩
    obtain ⟨w, rfl, hw⟩ := Option.map_eq_some_iff.mp hrow
    cases hw
    exact hmem
  · exact fun hmem => ⟨_, hmem, rfl⟩

/-- A key that only one setting has, in whatever case, is looked up as it was put. -/
theorem getNvConfigString_pairsOf {rows : List Row} {key : Text} {value : Option Text}
    (hmem : (key, value) ∈ rows)
    (hunique : ∀ row ∈ rows, strcaseeq row.1 key = true → row.2 = value) :
    getNvConfigString (pairsOf rows) key = value := by
  have hself : strcaseeq key key = true := by rw [strcaseeq, decide_eq_true rfl]
  cases hfind : (pairsOf rows).find? fun iter => strcaseeq iter.1 key with
  | none =>
    rw [getNvConfigString, hfind, Option.map_none]
    cases value with
    | none => rfl
    | some v => exact absurd hself (List.find?_eq_none.mp hfind _ (mem_pairsOf.mpr hmem))
  | some pair =>
    rw [getNvConfigString, hfind, Option.map_some]
    have hrow := mem_pairsOf.mp (List.mem_of_find?_eq_some hfind)
    have hkey : strcaseeq pair.1 key = true := by simpa using List.find?_some hfind
    exact hunique _ hrow hkey

/-- The driver's setting in a pair. -/
def driverPair (iter : Text × Text) : Option (Text × Text) :=
  if lit "Driver/" <+: iter.1 then some (iter.1.drop (lit "Driver/").length, iter.2) else none

/-- The loop over the pairs turns the order of the driver's settings round again. -/
theorem foldl_addDriver (pairs : NvPairs) :
    pairs.foldl addDriver [] = pairs.reverse.filterMap driverPair := by
  have hfold : ∀ driverconf : NvPairs,
      pairs.foldl addDriver driverconf = pairs.reverse.filterMap driverPair ++ driverconf := by
    induction pairs with
    | nil => exact fun _ => rfl
    | cons iter pairs ih =>
      intro driverconf
      rw [List.foldl_cons, ih, List.reverse_cons, List.filterMap_append, List.append_assoc]
      by_cases hdriver : lit "Driver/" <+: iter.1
      · simp [addDriver, driverPair, hdriver, makepair]
      · simp [addDriver, driverPair, hdriver]
  rw [hfold, List.append_nil]

/-! ## The settings of a configuration -/

section Settings

variable (iotLoggerLevelname : Nat → Text) (c : EdgexDeviceConfig) (labels : Option Text)

/-- The settings that are put before those of the driver. -/
def settingRows : List Row :=
  [(lit "Service/Host", c.service.host),
   (lit "Service/Port", some (decimal c.service.port.toNat)),
   (lit "Service/Timeout", some (decimal c.service.timeout.toNat)),
   (lit "Service/ConnectRetries", some (decimal c.service.connectretries.toNat)),
   (lit "Service/StartupMsg", c.service.startupmsg),
   (lit "Service/CheckInterval", c.service.checkinterval),
   (lit "Service/Labels", labels),
   (lit "Device/DataTransform", some (boolText c.device.datatransform)),
   (lit "Device/Discovery", some (boolText c.device.discovery)),
   (lit "Device/InitCmd", c.device.initcmd),
   (lit "Device/InitCmdArgs", c.device.initcmdargs),
   (lit "Device/MaxCmdOps", some (decimal c.device.maxcmdops.toNat)),
   (lit "Device/MaxCmdResultLen", some (decimal c.device.maxcmdresultlen.toNat)),
   (lit "Device/RemoveCmd", c.device.removecmd),
   (lit "Device/RemoveCmdArgs", c.device.removecmdargs),
   (lit "Device/ProfilesDir", c.device.profilesdir),
   (lit "Device/SendReadingsOnChanged", some (boolText c.device.sendreadingsonchanged))]

/-- The driver's settings. -/
def driverRows : List Row := c.driverconf.map fun iter => (lit "Driver/" ++ iter.1, some iter.2)

/-- The settings that are put behind those of the driver. -/
def loggingRows : List Row :=
  [(lit "Logging/EnableRemote", some (boolText c.logging.useremote)),
   (lit "Logging/File", c.logging.file),
   (lit "Writable/LogLevel", some (iotLoggerLevelname c.logging.level))]

/-- The settings with a key of the service's own. -/
def ownRows : List Row := settingRows c labels ++ loggingRows iotLoggerLevelname c

/-- All settings in the order in which they are put. -/
def configRows : List Row :=
  settingRows c labels ++ (driverRows c ++ loggingRows iotLoggerLevelname c)

end Settings

section Lookup

variable {iotLoggerLevelname : Nat → Text} {c : EdgexDeviceConfig} {labels : Option Text}

/-- No two keys of the service differ in case alone. -/
theorem nodup_ownRows :
    ((ownRows iotLoggerLevelname c labels).map fun row => row.1.map tolower).Nodup := by
  have hkeys : (ownRows iotLoggerLevelname c labels).map (fun row => row.1.map tolower) =
      (ownRows (fun _ => []) .fresh none).map fun row => row.1.map tolower := rfl
  rw [hkeys]
  decide +kernel

/-- No key of the service could be one of the driver's, in whatever case. -/
theorem not_driver_of_mem_ownRows {row : Row}
    (h : row ∈ ownRows iotLoggerLevelname c labels) :
    ¬ lit "driver/" <+: row.1.map tolower := by
  have hkeys : (ownRows iotLoggerLevelname c labels).map Prod.fst =
      (ownRows (fun _ => []) .fresh none).map Prod.fst := rfl
  have hall : ∀ key ∈ (ownRows (fun _ => []) .fresh none).map Prod.fst,
      ¬ lit "driver/" <+: key.map tolower := by decide +kernel
  exact hall _ (hkeys ▸ List.mem_map_of_mem h)

theorem tolower_driver (name : Text) :
    lit "driver/" <+: (lit "Driver/" ++ name).map tolower := by
  have hdriver : (lit "Driver/").map tolower = lit "driver/" := by decide
  rw [List.map_append, hdriver]
  exact List.prefix_append _ _

/-- A setting of the service is looked up as it was put. -/
theorem getNvConfigString_configRows {key : Text} {value : Option Text}
    (hmem : (key, value) ∈ ownRows iotLoggerLevelname c labels) :
    getNvConfigString (pairsOf (configRows iotLoggerLevelname c labels)) key = value := by
  apply getNvConfigString_pairsOf
  · rw [configRows, List.mem_append, List.mem_append]
    exact (List.mem_append.mp hmem).imp_right Or.inr
  intro row hrow hkey
  rw [strcaseeq, decide_eq_true_eq] at hkey
  rw [configRows, List.mem_append, List.mem_append] at hrow
  have hown : row ∈ ownRows iotLoggerLevelname c labels → row.2 = value := by
    intro h
    rw [List.inj_on_of_nodup_map nodup_ownRows h hmem hkey]
  rcases hrow with hrow | hrow | hrow
  · exact hown (List.mem_append_left _ hrow)
  · obtain ⟨iter, -, rfl⟩ := List.mem_map.mp hrow
    exact absurd (hkey ▸ tolower_driver iter.1) (not_driver_of_mem_ownRows hmem)
  · exact hown (List.mem_append_right _ hrow)

theorem getNvConfigUint_configRows {key : Text} {n max : Nat} (hmax : max < 2 ^ 64) (hn : n ≤ max)
    (hmem : (key, some (decimal n)) ∈ ownRows iotLoggerLevelname c labels)
    (err : Option EdgexError) :
    getNvConfigUint max (pairsOf (configRows iotLoggerLevelname c labels)) key err = (n, err) := by
  have hparse : strtoull0 (decimal n) = some n := strtoull0_decimal (by omega)
  rw [getNvConfigUint, getNvConfigString_configRows hmem]
  simp only [hparse, if_pos hn]

theorem getNvConfigUint32_configRows {key : Text} {n : UInt32}
    (hmem : (key, some (decimal n.toNat)) ∈ ownRows iotLoggerLevelname c labels)
    (err : Option EdgexError) :
    getNvConfigUint32 (pairsOf (configRows iotLoggerLevelname c labels)) key err = (n, err) := by
  have hn : n.toNat ≤ 2 ^ 32 - 1 := Nat.le_sub_one_of_lt n.toNat_lt
  rw [getNvConfigUint32, getNvConfigUint_configRows (by decide) hn hmem]
  simp only [UInt32.ofNat_toNat]

theorem getNvConfigUint16_configRows {key : Text} {n : UInt16}
    (hmem : (key, some (decimal n.toNat)) ∈ ownRows iotLoggerLevelname c labels)
    (err : Option EdgexError) :
    getNvConfigUint16 (pairsOf (configRows iotLoggerLevelname c labels)) key err = (n, err) := by
  have hn : n.toNat ≤ 2 ^ 16 - 1 := Nat.le_sub_one_of_lt n.toNat_lt
  rw [getNvConfigUint16, getNvConfigUint_configRows (by decide) hn hmem]
  simp only [UInt16.ofNat_toNat]

theorem getNvConfigBool_configRows {key : Text} {b : Bool}
    (hmem : (key, some (boolText b)) ∈ ownRows iotLoggerLevelname c labels) (dfl : Bool) :
    getNvConfigBool (pairsOf (configRows iotLoggerLevelname c labels)) key dfl = b := by
  have htrue : strcaseeq (boolText b) (lit "true") = b := by cases b <;> decide
  rw [getNvConfigBool, getNvConfigString_configRows hmem]
  exact htrue

/-- The driver's settings come back in their order. -/
theorem foldl_addDriver_configRows :
    (pairsOf (configRows iotLoggerLevelname c labels)).foldl addDriver [] = c.driverconf := by
  have hown : ∀ rows : List Row, rows ⊆ ownRows iotLoggerLevelname c labels →
      (rows.filterMap fun row => row.2.map (row.1, ·)).filterMap driverPair = [] := by
    intro rows hrows
    rw [List.filterMap_eq_nil_iff]
    rintro ⟨key, value⟩ hpair
    obtain ⟨row, hrow, hvalue⟩ := List.mem_filterMap.mp hpair
    obtain ⟨v, hv, heq⟩ := Option.map_eq_some_iff.mp hvalue
    cases heq
    have hnot := not_driver_of_mem_ownRows (hrows hrow)
    refine if_neg ?_
    rintro ⟨name, hname⟩
    exact hnot (hname ▸ tolower_driver name)
  have hdriver : ((driverRows c).filterMap fun row => row.2.map (row.1, ·)).filterMap driverPair =
      c.driverconf := by
    rw [driverRows, List.filterMap_map, List.filterMap_filterMap]
    simp [driverPair]
  rw [foldl_addDriver, pairsOf_eq, List.reverse_reverse, configRows, List.filterMap_append,
    List.filterMap_append, List.filterMap_append, List.filterMap_append,
    hown _ (List.subset_append_left _ _), hown _ (List.subset_append_right _ _), hdriver,
    List.append_nil, List.nil_append]

end Lookup

/-! ## Writing the settings -/

theorem putConfigUint_eq {n : Nat} (hn : n < 2 ^ 32) (name : Text) (result : NvPairs) :
    putConfigUint name n result = .ok (putConfigString name (some (decimal n)) result) := by
  have hlen : (decimal n).length ≤ 10 := (decimal_length_le_iff (by decide)).mpr (by omega)
  have hbuf : sprintf 32 (decimal n) = .ok (decimal n) := sprintf_eq_ok.mpr ⟨rfl, by omega⟩
  rw [putConfigUint, hbuf]
  rfl

theorem foldlM_putDriver (driverconf result : NvPairs) :
    driverconf.foldlM putDriver result =
      .ok ((driverconf.map fun iter => (lit "Driver/" ++ iter.1, some iter.2)).foldl
        (fun result row => putConfigString row.1 row.2 result) result) := by
  induction driverconf generalizing result with
  | nil => rfl
  | cons iter driverconf ih =>
    have hname : sprintf (iter.1.length + (lit "Driver/").length + 1) (lit "Driver/" ++ iter.1) =
        .ok (lit "Driver/" ++ iter.1) := by
      rw [sprintf_eq_ok, List.length_append]
      exact ⟨rfl, by omega⟩
    rw [List.foldlM_cons, putDriver, hname, Checked.ok_bind, Checked.ok_bind, ih]
    rfl

/-! ## Reading the settings -/

/-- A configuration with the labels that were read for it, and the log level of a fresh service. -/
def EdgexDeviceConfig.readBack (c : EdgexDeviceConfig) (tokens : List Text) : EdgexDeviceConfig :=
  { c with
    service := { c.service with labels := some tokens }
    logging := { c.logging with level := EdgexDeviceConfig.fresh.logging.level } }

/-- A fresh service takes over all settings of the pairs, and the labels it can make of their
text. -/
theorem edgexDevicePopulateConfigNV_eq (iotLoggerLevelname : Nat → Text) (c : EdgexDeviceConfig)
    (labels : Option Text) :
    edgexDevicePopulateConfigNV .fresh (pairsOf (configRows iotLoggerLevelname c labels)) none =
      (getLabels labels >>= fun tokens => .ok (c.readBack tokens, none)) := by
  have hdriver : (pairsOf (configRows iotLoggerLevelname c labels)).foldl addDriver
      EdgexDeviceConfig.fresh.driverconf = c.driverconf := foldl_addDriver_configRows
  have hstring {key value} : (key, value) ∈ ownRows iotLoggerLevelname c labels → _ :=
    getNvConfigString_configRows
  have huint32 {key} {n : UInt32} :
      (key, some (decimal n.toNat)) ∈ ownRows iotLoggerLevelname c labels → _ :=
    getNvConfigUint32_configRows
  have huint16 {key} {n : UInt16} :
      (key, some (decimal n.toNat)) ∈ ownRows iotLoggerLevelname c labels → _ :=
    getNvConfigUint16_configRows
  have hbool {key b} : (key, some (boolText b)) ∈ ownRows iotLoggerLevelname c labels → _ :=
    getNvConfigBool_configRows
  generalize pairsOf (configRows iotLoggerLevelname c labels) = pairs at *
  have hhost : getNvConfigString pairs (lit "Service/Host") = c.service.host :=
    hstring (by simp [ownRows, settingRows])
  have hport (err : Option EdgexError) :
      getNvConfigUint16 pairs (lit "Service/Port") err = (c.service.port, err) :=
    huint16 (by simp [ownRows, settingRows]) err
  have htimeout (err : Option EdgexError) :
      getNvConfigUint32 pairs (lit "Service/Timeout") err = (c.service.timeout, err) :=
    huint32 (by simp [ownRows, settingRows]) err
  have hretries (err : Option EdgexError) :
      getNvConfigUint32 pairs (lit "Service/ConnectRetries") err = (c.service.connectretries, err) :=
    huint32 (by simp [ownRows, settingRows]) err
  have hstartup : getNvConfigString pairs (lit "Service/StartupMsg") = c.service.startupmsg :=
    hstring (by simp [ownRows, settingRows])
  have hcheck : getNvConfigString pairs (lit "Service/CheckInterval") = c.service.checkinterval :=
    hstring (by simp [ownRows, settingRows])
  have hlabels : getNvConfigString pairs (lit "Service/Labels") = labels :=
    hstring (by simp [ownRows, settingRows])
  have htransform (dfl : Bool) :
      getNvConfigBool pairs (lit "Device/DataTransform") dfl = c.device.datatransform :=
    hbool (by simp [ownRows, settingRows]) dfl
  have hdiscovery (dfl : Bool) :
      getNvConfigBool pairs (lit "Device/Discovery") dfl = c.device.discovery :=
    hbool (by simp [ownRows, settingRows]) dfl
  have hinit : getNvConfigString pairs (lit "Device/InitCmd") = c.device.initcmd :=
    hstring (by simp [ownRows, settingRows])
  have hinitargs : getNvConfigString pairs (lit "Device/InitCmdArgs") = c.device.initcmdargs :=
    hstring (by simp [ownRows, settingRows])
  have hops (err : Option EdgexError) :
      getNvConfigUint32 pairs (lit "Device/MaxCmdOps") err = (c.device.maxcmdops, err) :=
    huint32 (by simp [ownRows, settingRows]) err
  have hlen (err : Option EdgexError) :
      getNvConfigUint32 pairs (lit "Device/MaxCmdResultLen") err = (c.device.maxcmdresultlen, err) :=
    huint32 (by simp [ownRows, settingRows]) err
  have hremove : getNvConfigString pairs (lit "Device/RemoveCmd") = c.device.removecmd :=
    hstring (by simp [ownRows, settingRows])
  have hremoveargs : getNvConfigString pairs (lit "Device/RemoveCmdArgs") = c.device.removecmdargs :=
    hstring (by simp [ownRows, settingRows])
  have hprofiles : getNvConfigString pairs (lit "Device/ProfilesDir") = c.device.profilesdir :=
    hstring (by simp [ownRows, settingRows])
  have hchanged (dfl : Bool) :
      getNvConfigBool pairs (lit "Device/SendReadingsOnChanged") dfl = c.device.sendreadingsonchanged :=
    hbool (by simp [ownRows, settingRows]) dfl
  have hremote (dfl : Bool) :
      getNvConfigBool pairs (lit "Logging/EnableRemote") dfl = c.logging.useremote :=
    hbool (by simp [ownRows, loggingRows]) dfl
  have hfile : getNvConfigString pairs (lit "Logging/File") = c.logging.file :=
    hstring (by simp [ownRows, loggingRows])
  simp only [edgexDevicePopulateConfigNV, hhost, hport, htimeout, hretries, hstartup, hcheck,
    hlabels, htransform, hdiscovery, hinit, hinitargs, hops, hlen, hremove, hremoveargs, hprofiles,
    hchanged, hremote, hfile, hdriver]
  rfl

/-! ## Labels -/

/-- The room that all labels take with a terminator each. -/
def labelSpace (labels : List Text) : Nat := (labels.map fun label => label.length + 1).sum

/-- The labels can be put and read again: there is no room to count for them, or they fit a positive
`int` and one of them has a character that is not a comma. -/
def LabelsReadable (labels : List Text) : Prop :=
  labelSpace labels % 2 ^ 32 = 0 ∨
    labelSpace labels < 2 ^ 31 ∧ ∃ label ∈ labels, ∃ c ∈ label, c ≠ chr ','

section Labels

variable {labels : List Text}

theorem labellen_eq (labels : List Text) : labellen labels = toInt32 (labelSpace labels) := by
  have hfold : ∀ n : Int, labels.foldl (fun labellen label => toInt32 (labellen + (label.length + 1)))
      (toInt32 n) = toInt32 (n + labelSpace labels) := by
    induction labels with
    | nil => intro n; simp [labelSpace]
    | cons label labels ih =>
      intro n
      have hstep : toInt32 (toInt32 n + (label.length + 1)) = toInt32 (n + (label.length + 1)) :=
        Int.bmod_add_bmod
      rw [List.foldl_cons, hstep, ih]
      congr 1
      simp only [labelSpace, List.map_cons, List.sum_cons]
      push_cast
      omega
  have hzero : toInt32 0 = 0 := by decide
  rw [labellen, ← hzero, hfold, Int.zero_add]

theorem labellen_eq_zero : labellen labels = 0 ↔ labelSpace labels % 2 ^ 32 = 0 := by
  rw [labellen_eq]
  simp only [toInt32, toSigned, Int.bmod_def]
  omega

/-- A count that is large enough for the labels is exact. -/
theorem labelSpace_le_labellen (_hpos : labelSpace labels ≠ 0) :
    0 ≤ labellen labels ∧ labelSpace labels ≤ (labellen labels).toNat ↔
      labelSpace labels < 2 ^ 31 := by
  rw [labellen_eq]
  simp only [toInt32, toSigned, Int.bmod_def]
  omega

/-- Joined with commas, the labels take the room counted for them. -/
theorem length_intercalate_labels (h : labels ≠ []) :
    ([chr ','].intercalate labels).length + 1 = labelSpace labels := by
  induction labels with
  | nil => exact absurd rfl h
  | cons label labels ih =>
    cases labels with
    | nil => simp [labelSpace]
    | cons label' labels =>
      have hrest := ih (List.cons_ne_nil label' labels)
      rw [List.intercalate_cons_cons, List.length_append, List.length_append, List.length_singleton]
      simp only [labelSpace, List.map_cons, List.sum_cons] at hrest ⊢
      omega

theorem joinLabels_eq_ok {cap : Nat} {text : Text} (h : labels ≠ []) :
    joinLabels cap labels = .ok text ↔
      text = [chr ','].intercalate labels ∧ text.length < cap := by
  obtain ⟨label, labels, rfl⟩ := List.exists_cons_of_ne_nil h
  rw [joinLabels, Checked.bind_eq_ok]
  constructor
  · rintro ⟨text₀, hfirst, hrest⟩
    obtain ⟨rfl, hlen⟩ := strcat_eq_ok.mp hfirst
    have hroom : text₀.length < cap := by rwa [List.length_nil, Nat.zero_add] at hlen
    exact (foldlM_strcat_eq_ok hroom).mp hrest
  · rintro ⟨htext, hlen⟩
    have hle := length_le_intercalate [chr ','] label labels
    rw [← htext] at hle
    have hroom : label.length < cap := Nat.lt_of_le_of_lt hle hlen
    exact ⟨label, strcat_eq_ok.mpr ⟨rfl, by simpa using hroom⟩,
      (foldlM_strcat_eq_ok hroom).mpr ⟨htext, hlen⟩⟩

/-- The text of the labels that is put, if any. -/
def labelsText (labels : List Text) : Option Text :=
  if labelSpace labels % 2 ^ 32 = 0 then none else some ([chr ','].intercalate labels)

/-- No room is counted for the labels, or they fit a positive `int`. -/
def LabelsFit (labels : List Text) : Prop :=
  labelSpace labels % 2 ^ 32 = 0 ∨ labelSpace labels < 2 ^ 31

/-- The labels are put when they fit; otherwise the count is negative or too small. -/
theorem putLabels_eq_ok {result r : NvPairs} :
    putLabels (some labels) result = .ok r ↔
      LabelsFit labels ∧
        r = putConfigString (lit "Service/Labels") (labelsText labels) result := by
  by_cases hzero : labelSpace labels % 2 ^ 32 = 0
  · rw [putLabels, if_pos (labellen_eq_zero.mpr hzero), labelsText, if_pos hzero, Except.ok.injEq,
      eq_comm]
    exact ⟨fun h => ⟨.inl hzero, h⟩, And.right⟩
  · have hspace : labelSpace labels ≠ 0 := fun heq => hzero (by rw [heq, Nat.zero_mod])
    have hne : labels ≠ [] := fun heq => hspace (by rw [heq]; rfl)
    have hlen := length_intercalate_labels hne
    have hfit : LabelsFit labels ↔ labelSpace labels < 2 ^ 31 := or_iff_right hzero
    rw [putLabels, if_neg (fun heq => hzero (labellen_eq_zero.mp heq)), labelsText, if_neg hzero,
      hfit, ← labelSpace_le_labellen hspace]
    by_cases hneg : labellen labels < 0
    · rw [if_pos hneg]
      exact ⟨nofun, fun hand => absurd hneg (Int.not_lt.mpr hand.1.1)⟩
    · rw [if_neg hneg]
      simp only [Checked.bind_eq_ok, joinLabels_eq_ok hne]
      constructor
      · rintro ⟨text, ⟨rfl, hlt⟩, h⟩
        cases h
        exact ⟨⟨Int.not_lt.mp hneg, by omega⟩, rfl⟩
      · rintro ⟨⟨-, hle⟩, rfl⟩
        exact ⟨_, ⟨rfl, by omega⟩, rfl⟩

/-- In a text that fits an `int` the labels are the tokens, if there are any. -/
theorem splitLabels_eq_ok {lstr : Text} {tokens : List Text} (hlen : lstr.length + 1 < 2 ^ 31) :
    splitLabels lstr = .ok tokens ↔ tokens = strtokAll (chr ',') lstr ∧ tokens ≠ [] := by
  cases htokens : strtokAll (chr ',') lstr with
  | nil =>
    simp only [splitLabels, htokens]
    constructor
    · intro h
      split at h <;> cases h
    · rintro ⟨rfl, hne⟩
      exact absurd rfl hne
  | cons token rest =>
    have hne : strtokAll (chr ',') lstr ≠ [] := by
      rw [htokens]
      exact List.cons_ne_nil token rest
    have hcount := List.count_lt_length_iff.mpr (strtokAll_ne_nil.mp hne)
    have hroom := length_strtokAll_le (chr ',') lstr
    rw [htokens] at hroom
    simp only [splitLabels, htokens]
    rw [if_neg (by omega), if_pos (by omega), Except.ok.injEq]
    constructor
    · rintro rfl
      exact ⟨rfl, List.cons_ne_nil token rest⟩
    · rintro ⟨rfl, -⟩
      rfl

/-- The text of labels that were put is read exactly when a label has a character of its own. -/
theorem getLabels_returns_iff (h : LabelsFit labels) :
    (∃ tokens, getLabels (labelsText labels) = .ok tokens) ↔ LabelsReadable labels := by
  rw [LabelsReadable, labelsText]
  by_cases hzero : labelSpace labels % 2 ^ 32 = 0
  · rw [if_pos hzero]
    exact ⟨fun _ => Or.inl hzero, fun _ => ⟨[], rfl⟩⟩
  · have hsize := h.resolve_left hzero
    have hne : labels ≠ [] := by
      rintro rfl
      exact hzero rfl
    have hlen := length_intercalate_labels hne
    simp only [if_neg hzero, getLabels]
    rw [← exists_ne_mem_intercalate, ← strtokAll_ne_nil]
    constructor
    · rintro ⟨tokens, htokens⟩
      obtain ⟨rfl, hany⟩ := (splitLabels_eq_ok (by omega)).mp htokens
      exact Or.inr ⟨hsize, hany⟩
    · intro hread
      exact ⟨_, (splitLabels_eq_ok (by omega)).mpr ⟨rfl, (hread.resolve_left hzero).2⟩⟩

/-- Labels that are neither empty nor hold a comma come back as they are. -/
theorem getLabels_labelsText (hspace : labelSpace labels < 2 ^ 31)
    (hlabels : ∀ label ∈ labels, label ≠ [] ∧ chr ',' ∉ label) :
    getLabels (labelsText labels) = .ok labels := by
  by_cases hne : labels = []
  · rw [hne]
    rfl
  have hlen := length_intercalate_labels hne
  have hzero : ¬ labelSpace labels % 2 ^ 32 = 0 := by omega
  rw [labelsText, if_neg hzero, getLabels, splitLabels_eq_ok (by omega), strtokAll,
    List.splitOn_intercalate _ (fun label h => (hlabels label h).2) hne]
  refine ⟨(List.filter_eq_self.mpr ?_).symm, hne⟩
  exact fun label h => decide_eq_true (hlabels label h).1

end Labels

/-! ## Through the registry and back -/

/-- A configuration is listed exactly when its labels fit. -/
theorem edgexDeviceGetConfig_eq_ok {iotLoggerLevelname : Nat → Text} {c : EdgexDeviceConfig}
    {pairs : NvPairs} :
    edgexDeviceGetConfig iotLoggerLevelname c = .ok pairs ↔
      ∃ labels, c.service.labels = some labels ∧ LabelsFit labels ∧
        pairs = pairsOf (configRows iotLoggerLevelname c (labelsText labels)) := by
  have hport := putConfigUint_eq (Nat.lt_trans c.service.port.toNat_lt (by decide))
  have htimeout := putConfigUint_eq c.service.timeout.toNat_lt
  have hretries := putConfigUint_eq c.service.connectretries.toNat_lt
  have hops := putConfigUint_eq c.device.maxcmdops.toNat_lt
  have hlen := putConfigUint_eq c.device.maxcmdresultlen.toNat_lt
  simp only [edgexDeviceGetConfig, hport, htimeout, hretries, hops, hlen, foldlM_putDriver,
    Checked.ok_bind, Checked.bind_eq_ok]
  cases c.service.labels with
  | none =>
    constructor
    · rintro ⟨result, hput, -⟩
      cases hput
    · rintro ⟨labels, hlabels, -⟩
      cases hlabels
  | some labels =>
    simp only [putLabels_eq_ok, Option.some.injEq, exists_eq_left']
    rw [pairsOf, configRows, List.foldl_append, List.foldl_append]
    constructor
    · rintro ⟨result, ⟨hfit, rfl⟩, h⟩
      cases h
      exact ⟨hfit, rfl⟩
    · rintro ⟨hfit, rfl⟩
      exact ⟨_, ⟨hfit, rfl⟩, rfl⟩

/-- What is to come back: everything but the labels and the log level. -/
structure SameSettings (c c' : EdgexDeviceConfig) : Prop where
  service : c'.service = { c.service with labels := c'.service.labels }
  device : c'.device = c.device
  logging : c'.logging = { c.logging with level := c'.logging.level }
  driverconf : c'.driverconf = c.driverconf

/-- The pairs of the configuration set up a fresh service alike, without an error. -/
def Survives (iotLoggerLevelname : Nat → Text) (c : EdgexDeviceConfig) : Prop :=
  ∃ pairs, edgexDeviceGetConfig iotLoggerLevelname c = .ok pairs ∧
    ∃ c', edgexDevicePopulateConfigNV .fresh pairs none = .ok (c', none) ∧ SameSettings c c'

theorem sameSettings_readBack (c : EdgexDeviceConfig) (tokens : List Text) :
    SameSettings c (c.readBack tokens) := ⟨rfl, rfl, rfl, rfl⟩

/-- A configuration comes back exactly when its labels can be put and read. -/
theorem survives_iff (iotLoggerLevelname : Nat → Text) (c : EdgexDeviceConfig) :
    Survives iotLoggerLevelname c ↔
      ∃ labels, c.service.labels = some labels ∧ LabelsReadable labels := by
  constructor
  · rintro ⟨pairs, hget, c', hpopulate, -⟩
    obtain ⟨labels, hlabels, hfit, rfl⟩ := edgexDeviceGetConfig_eq_ok.mp hget
    rw [edgexDevicePopulateConfigNV_eq] at hpopulate
    obtain ⟨tokens, htokens, -⟩ := Checked.bind_eq_ok.mp hpopulate
    exact ⟨labels, hlabels, (getLabels_returns_iff hfit).mp ⟨tokens, htokens⟩⟩
  · rintro ⟨labels, hlabels, hread⟩
    have hfit : LabelsFit labels := hread.imp_right And.left
    obtain ⟨tokens, htokens⟩ := (getLabels_returns_iff hfit).mpr hread
    refine ⟨_, edgexDeviceGetConfig_eq_ok.mpr ⟨labels, hlabels, hfit, rfl⟩, c.readBack tokens, ?_,
      sameSettings_readBack c tokens⟩
    rw [edgexDevicePopulateConfigNV_eq, htokens]
    rfl

/-- A service with the label `,`. -/
def commaLabel : EdgexDeviceConfig :=
  { EdgexDeviceConfig.fresh with
    service :=
      { EdgexDeviceConfig.fresh.service with
        host := some (lit "localhost"), port := 49999, labels := some [lit ","] } }

/-- The label is put, but reading it follows the NULL that `strtok_r` returns. -/
theorem commaLabel_lost :
    (∃ pairs, edgexDeviceGetConfig (fun _ => lit "INFO") commaLabel = .ok pairs ∧
      edgexDevicePopulateConfigNV .fresh pairs none = .error .nullPointer) ∧
    ¬ Survives (fun _ => lit "INFO") commaLabel := by
  have hget : edgexDeviceGetConfig (fun _ => lit "INFO") commaLabel = .ok _ :=
    edgexDeviceGetConfig_eq_ok.mpr ⟨[lit ","], rfl, .inr (by decide), rfl⟩
  have hpopulate : edgexDevicePopulateConfigNV .fresh
      (pairsOf (configRows (fun _ => lit "INFO") commaLabel (labelsText [lit ","]))) none =
        .error .nullPointer := by
    have htext : getLabels (labelsText [lit ","]) = .error .nullPointer := by decide
    rw [edgexDevicePopulateConfigNV_eq, htext]
    rfl
  refine ⟨⟨_, hget, hpopulate⟩, ?_⟩
  rintro ⟨pairs, hpairs, c', hc', -⟩
  cases hget.symm.trans hpairs
  cases hpopulate.symm.trans hc'

end Zigbee
