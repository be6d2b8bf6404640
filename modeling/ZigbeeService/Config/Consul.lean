-- SUMMARY: Settings written to the Consul store and read from its response (consul.c).
import ZigbeeService.Rest.RoundTrip
import ZigbeeService.Sdk.Base64

/-!
# The Consul client

`edgex_consul_client_write_config` turns each pair into a command for the store: the name behind a
prefix and the name of the service, the value in base64. `read_pairs` turns the entries of a
response back into pairs. The store itself, and the text level of parson, are not part of the model:
what the store returns is a premise of the results.
-/

namespace Zigbee

open CLib

def CONF_PREFIX : Text := lit "edgex/core/1.0/"

/-! ## Reading -/

/-- `edgex_error`, as far as the configuration code sets it. -/
inductive EdgexError where
  | EDGEX_CONSUL_RESPONSE
  | EDGEX_BAD_CONFIG
  deriving DecidableEq, Repr

/-- The name in a key: what follows the prefix and the name of the service. -/
def keyName (key : Text) : Option Text :=
  if CONF_PREFIX <+: key then
    match strchr (key.drop CONF_PREFIX.length) (chr '/') with
    | some (_ :: keyindex) => if keyindex = [] then none else some keyindex
    | _ => none
  else none

/-- The value in an entry. The decoder's buffer has one byte more than it asks for, for the
terminator. -/
def entryValue (enc : Text) : Option Text :=
  match edgexB64Decode enc (edgexB64Maxdecodesize enc) with
  | (true, value) => some (cstring value)
  | (false, _) => none

/-- One round of `read_pairs`. -/
def readPair (obj : Option Members) : Option (Text × Text) := do
  let key ← jsonObjectGetString obj (lit "Key")
  let name ← keyName key
  let enc ← jsonObjectGetString obj (lit "Value")
  let value ← entryValue enc
  some (name, value)

/-- The loop of `read_pairs`. Each pair is put before those read so far; the first entry that is not
as expected ends the loop. -/
def readPairsFrom : List Json → NvPairs → NvPairs × Option EdgexError
  | [], result => (result, none)
  | config :: configs, result =>
    match readPair (jsonValueGetObject (some config)) with
    | none => (result, some .EDGEX_CONSUL_RESPONSE)
    | some pair => readPairsFrom configs (pair :: result)

/-- `read_pairs`: the pairs, and the error it reports. -/
def readPairs (parson : Parson) (json : Text) : NvPairs × Option EdgexError :=
  readPairsFrom (jsonArrayItems (jsonValueGetArray (parson.parse json))) []

/-! ## Writing -/

/-- The key of a setting, printed into a buffer of `keysz` bytes. An empty profile name is none. -/
def keystr (servicename : Text) (profile : Option Text) (name : Text) : Checked Text :=
  let keysz := CONF_PREFIX.length + servicename.length + name.length + 2
  let profile := profile.getD []
  if profile = [] then sprintf keysz (CONF_PREFIX ++ servicename ++ lit "/" ++ name)
  else
    sprintf (keysz + (profile.length + 1))
      (CONF_PREFIX ++ servicename ++ lit ";" ++ profile ++ lit "/" ++ name)

/-- The value of a setting in base64. A buffer that the encoder refused was never written. -/
def base64val (value : Text) : Checked Text :=
  match edgexB64Encode value (edgexB64Encodesize value.length) with
  | none => .error .uninitialised
  | some text => .ok text

/-- The fields of a command. -/
def kvfields (keystr base64val : Text) : Members :=
  let obj := jsonObjectSetString [] (lit "Verb") (lit "set")
  let obj := jsonObjectSetString obj (lit "Key") keystr
  jsonObjectSetString obj (lit "Value") base64val

/-- One round of `edgex_consul_client_write_config`: the command that stores one pair. -/
def kvcmd (servicename : Text) (profile : Option Text) (iter : Text × Text) : Checked Json := do
  let base64val ← base64val iter.2
  let keystr ← keystr servicename profile iter.1
  .ok (.object (jsonObjectSetValue [] (lit "KV") (some (.object (kvfields keystr base64val)))))

/-- The commands of `edgex_consul_client_write_config`, in the order of the pairs. -/
def kvcmds (servicename : Text) (profile : Option Text) (config : NvPairs) : Checked (List Json) :=
  config.mapM (kvcmd servicename profile)

/-- `edgex_consul_client_write_config`: the body of its request. -/
def edgexConsulClientWriteConfig (parson : Parson) (servicename : Text) (profile : Option Text)
    (config : NvPairs) : Checked Text := do
  let jarray ← kvcmds servicename profile config
  .ok (parson.serialize (.array jarray))

/-! ## Keys -/

/-- A name that can stand between the prefix and the slash of a key. -/
def Segment (s : Text) : Prop := isValidUtf8 s = true ∧ chr '/' ∉ s

/-- What stands between the prefix and the slash. -/
def stem (servicename : Text) (profile : Option Text) : Text :=
  if profile.getD [] = [] then servicename else servicename ++ lit ";" ++ profile.getD []

section Keys

variable {servicename name : Text} {profile : Option Text}

/-- The buffer of a key is large enough. -/
theorem keystr_eq :
    keystr servicename profile name =
      .ok (CONF_PREFIX ++ (stem servicename profile ++ chr '/' :: name)) := by
  have hslash : (lit "/").length = 1 := rfl
  have hsemicolon : (lit ";").length = 1 := rfl
  unfold keystr stem
  by_cases hprofile : profile.getD [] = []
  · simp only [if_pos hprofile]
    rw [sprintf_eq_ok]
    constructor
    · simp [lit]
    · simp only [List.length_append, hslash]
      omega
  · simp only [if_neg hprofile]
    rw [sprintf_eq_ok]
    constructor
    · simp [lit]
    · simp only [List.length_append, hslash, hsemicolon]
      omega

theorem segment_stem (hservice : Segment servicename) (hprofile : ∀ p ∈ profile, Segment p) :
    Segment (stem servicename profile) := by
  unfold stem
  by_cases hnone : profile.getD [] = []
  · rw [if_pos hnone]
    exact hservice
  · rw [if_neg hnone]
    cases profile with
    | none => exact absurd rfl hnone
    | some p =>
      obtain ⟨hvalid, hslash⟩ := hprofile p rfl
      have hsemicolon : isValidUtf8 (lit ";") = true := by decide
      refine ⟨isValidUtf8_append (isValidUtf8_append hservice.1 hsemicolon) hvalid, ?_⟩
      rw [List.mem_append, List.mem_append]
      rintro ((hmem | hmem) | hmem)
      · exact hservice.2 hmem
      · exact absurd hmem (by decide)
      · exact hslash hmem

theorem isValidUtf8_key {stem : Text} (hstem : isValidUtf8 stem = true)
    (hname : isValidUtf8 name = true) :
    isValidUtf8 (CONF_PREFIX ++ (stem ++ chr '/' :: name)) = true := by
  have hprefix : isValidUtf8 CONF_PREFIX = true := by decide
  have hslash : isValidUtf8 [chr '/'] = true := by decide
  exact isValidUtf8_append hprefix (isValidUtf8_append hstem (isValidUtf8_append hslash hname))

/-- The first slash behind the prefix is the one before the name, whatever the name contains. -/
theorem keyName_key {stem : Text} (hstem : chr '/' ∉ stem) (hname : name ≠ []) :
    keyName (CONF_PREFIX ++ (stem ++ chr '/' :: name)) = some name := by
  rw [keyName, if_pos (List.prefix_append _ _), List.drop_left, strchr, strstr_sep hstem]
  exact if_neg hname

end Keys

/-! ## Values -/

/-- A value of any length goes through base64 and back. -/
theorem entryValue_base64val {value : Text} (h : 0 ∉ value) :
    ∃ enc, base64val value = .ok enc ∧ isValidUtf8 enc = true ∧ entryValue enc = some value := by
  have henc := edgexB64Encode_encodesize value
  refine ⟨padEquals (encodeLoop value), by rw [base64val, henc], ?_, ?_⟩
  · have hsymbols : ∀ c ∈ enc, c < 0x80 := by decide +kernel
    apply isValidUtf8_ascii
    intro c hc
    rcases mem_edgexB64Encode henc hc with hmem | rfl
    · exact hsymbols c hmem
    · decide
  · rw [entryValue, edgexB64Decode_edgexB64Encode henc]
    simp only [cstring_eq h]

/-! ## What is written is read back -/

/-- The store's entry for a command: it has the key and the value the command gave, whatever other
fields it has. -/
def Stored (cmd entry : Json) : Prop :=
  ∃ kv obj, jsonObjectGetObject (jsonValueGetObject (some cmd)) (lit "KV") = some kv ∧
    entry = .object obj ∧
    ∀ field ∈ [lit "Key", lit "Value"],
      jsonObjectGetString (some obj) field = jsonObjectGetString (some kv) field

/-- A pair the store can hold. -/
structure Settable (nv : Text × Text) : Prop where
  name_ne_nil : nv.1 ≠ []
  name_utf8 : isValidUtf8 nv.1 = true
  value_cstring : 0 ∉ nv.2

section WriteRead

variable {servicename : Text} {profile : Option Text} {config : NvPairs}

attribute [local simp] jsonObjectGetString jsonObjectGetObject jsonObjectGetValue_setString

theorem readPair_kvcmd (hservice : Segment servicename) (hprofile : ∀ p ∈ profile, Segment p)
    {nv : Text × Text} (hnv : Settable nv) :
    ∃ cmd, kvcmd servicename profile nv = .ok cmd ∧
      ∀ entry, Stored cmd entry → readPair (jsonValueGetObject (some entry)) = some nv := by
  obtain ⟨hvalid, hslash⟩ := segment_stem hservice hprofile
  obtain ⟨enc, hbase64, hascii, hvalue⟩ := entryValue_base64val hnv.value_cstring
  have hkeyvalid := isValidUtf8_key hvalid hnv.name_utf8
  have hname := keyName_key hslash hnv.name_ne_nil
  refine ⟨_, by rw [kvcmd, hbase64, keystr_eq]; rfl, ?_⟩
  rintro entry ⟨kv, obj, hkv, rfl, hfields⟩
  obtain rfl : kvfields _ enc = kv := by simpa using hkv
  have hkey : jsonObjectGetString (some obj) (lit "Key") = _ := hfields _ (by simp)
  have henc : jsonObjectGetString (some obj) (lit "Value") = _ := hfields _ (by simp)
  simp +decide [kvfields, hkeyvalid, hascii] at hkey henc
  simp [readPair, hkey, henc, hname, hvalue]

/-- Entries of the commands, read in turn. -/
theorem readPairsFrom_kvcmds (hservice : Segment servicename)
    (hprofile : ∀ p ∈ profile, Segment p) (hconfig : ∀ nv ∈ config, Settable nv) :
    ∃ cmds, kvcmds servicename profile config = .ok cmds ∧
      ∀ entries, List.Forall₂ Stored cmds entries →
        ∀ result, readPairsFrom entries result = (config.reverse ++ result, none) := by
  unfold kvcmds
  induction config with
  | nil =>
    refine ⟨[], rfl, ?_⟩
    intro entries hentries result
    cases hentries
    rfl
  | cons nv config ih =>
    rw [List.forall_mem_cons] at hconfig
    obtain ⟨cmd, hcmd, hread⟩ := readPair_kvcmd hservice hprofile hconfig.1
    obtain ⟨cmds, hcmds, hreads⟩ := ih hconfig.2
    refine ⟨cmd :: cmds, by rw [List.mapM_cons, hcmd, Checked.ok_bind, hcmds]; rfl, ?_⟩
    intro entries hentries result
    cases hentries with
    | cons hentry hentries =>
      simp only [readPairsFrom, hread _ hentry]
      rw [hreads _ hentries, List.reverse_cons, List.append_assoc, List.singleton_append]

/-- Settings that were written to the store are read back, the last one first. -/
theorem readPairs_edgexConsulClientWriteConfig (parson : Parson) (hservice : Segment servicename)
    (hprofile : ∀ p ∈ profile, Segment p) (hconfig : ∀ nv ∈ config, Settable nv) :
    ∃ cmds, kvcmds servicename profile config = .ok cmds ∧
      edgexConsulClientWriteConfig parson servicename profile config =
        .ok (parson.serialize (.array cmds)) ∧
      ∀ json entries, parson.parse json = some (.array entries) →
        List.Forall₂ Stored cmds entries → readPairs parson json = (config.reverse, none) := by
  obtain ⟨cmds, hcmds, hreads⟩ := readPairsFrom_kvcmds hservice hprofile hconfig
  refine ⟨cmds, hcmds, by rw [edgexConsulClientWriteConfig, hcmds]; rfl, ?_⟩
  intro json entries hjson hentries
  rw [readPairs, hjson, jsonValueGetArray_array, jsonArrayItems_some, hreads _ hentries,
    List.append_nil]

/-- The fields of a command, as a store that adds nothing returns them. -/
def echo (cmd : Json) : Json :=
  .object ((jsonObjectGetObject (jsonValueGetObject (some cmd)) (lit "KV")).getD [])

theorem stored_echo {cmds : List Json} (h : kvcmds servicename profile config = .ok cmds) :
    List.Forall₂ Stored cmds (cmds.map echo) := by
  have hcmd : ∀ nv ∈ config, ∃ cmd, kvcmd servicename profile nv = .ok cmd ∧
      Stored cmd (echo cmd) := by
    intro nv _
    have henc := edgexB64Encode_encodesize nv.2
    refine ⟨_, by rw [kvcmd, base64val, henc, keystr_eq]; rfl, _, _, rfl, rfl, ?_⟩
    exact fun _ _ => rfl
  obtain ⟨cmds', hcmds, hall⟩ := Checked.mapM_all_iff.mpr hcmd
  obtain rfl : cmds' = cmds := Except.ok.inj (hcmds.symm.trans h)
  rw [List.forall₂_map_right_iff, List.forall₂_same]
  exact hall

end WriteRead

/-- Settings of a service; one name contains a slash, one value is empty and one is not ASCII. -/
def zigbeeSettings : NvPairs :=
  [(lit "Writable/LogLevel", lit "INFO"), (lit "Service/Labels", []),
   (lit "Driver/Uart", [0x2F, 0xC2, 0xB5])]

/-- A store that returns the fields of the commands as they are. -/
theorem zigbeeSettings_readBack :
    ∃ cmds, kvcmds (lit "device-zigbee") (some (lit "dev")) zigbeeSettings = .ok cmds ∧
      ∃ json, readPairs (.knowing (.array (cmds.map echo))) json =
        (zigbeeSettings.reverse, none) := by
  have hservice : Segment (lit "device-zigbee") := ⟨by decide, by decide⟩
  have hprofile : ∀ p ∈ some (lit "dev"), Segment p := by
    rintro p ⟨rfl⟩
    exact ⟨by decide, by decide⟩
  have hsettings : ∀ nv ∈ zigbeeSettings, Settable nv := by
    simp only [zigbeeSettings, List.forall_mem_cons]
    exact ⟨⟨by decide, by decide, by decide⟩, ⟨by decide, by decide, by decide⟩,
      ⟨by decide, by decide, by decide⟩, fun _ => nofun⟩
  obtain ⟨cmds, hcmds, -⟩ := readPairsFrom_kvcmds hservice hprofile hsettings
  obtain ⟨cmds', hcmds', -, hread⟩ := readPairs_edgexConsulClientWriteConfig
    (.knowing (.array (cmds.map echo))) hservice hprofile hsettings
  obtain rfl : cmds' = cmds := Except.ok.inj (hcmds'.symm.trans hcmds)
  exact ⟨cmds', hcmds, _, hread _ _ (Parson.knowing_parsesBack _) (stored_echo hcmds)⟩

end Zigbee
