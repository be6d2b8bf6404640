-- SUMMARY: Device profiles written as JSON and read back, and when the profile read back is the one written.
import ZigbeeService.Rest.RoundTrip

/-!
# Profile round trips

For each part of a profile, `echo` is what is read back of it. A profile comes back as it was when
it is its own echo, up to the order of attributes and mappings and the table of commands.
-/

namespace Zigbee

open CLib

attribute [local simp] getString getCount jsonObjectGetString jsonObjectGetNumber
  jsonObjectGetObject jsonObjectGetArray jsonObjectSetNumber jsonObjectSetString_valid

/-! ## Property values -/

theorem edgexPropertytype_roundTrip (pt : PropertyType) :
    edgexPropertytypeFromstring (some (edgexPropertytypeTostring pt)) = .ok (some pt) := by
  cases pt <;> decide

theorem isValidUtf8_propertytype (pt : PropertyType) :
    isValidUtf8 (edgexPropertytypeTostring pt) = true := by
  cases pt <;> decide

theorem isValidUtf8_rwstrings (readable writable : Bool) :
    isValidUtf8 (rwstrings readable writable) = true := by
  cases readable <;> cases writable <;> decide

/-- The text of an enabled transform argument. -/
def argText (dt : DoubleText) (pt : PropertyType) (value : UInt64) : Text :=
  if pt.isFloat then dt.printf value else decimalInt (ival value)

theorem argText_eq_decimalInt {pt : PropertyType} (h : pt.isFloat = false) (dt : DoubleText)
    (value : UInt64) : argText dt pt value = decimalInt (ival value) := by
  rw [argText, h, if_neg Bool.false_ne_true]

/-- The member an argument leaves in the document. -/
def argMember (obj : Members) (name : Text) : Option Text → Members
  | none => obj
  | some text => jsonObjectSetString obj name text

theorem jsonObjectGetValue_argMember {text : Option Text}
    (h : ∀ t ∈ text, isValidUtf8 t = true) (obj : Members) (name key : Text) :
    jsonObjectGetValue (some (argMember obj name text)) key =
      if key = name then (text.map Json.string).or (jsonObjectGetValue (some obj) key)
      else jsonObjectGetValue (some obj) key := by
  cases text with
  | none => simp [argMember]
  | some t => simp [argMember, h t rfl]

theorem ival_natAbs_le (value : UInt64) : (ival value).natAbs ≤ 2 ^ 63 := by
  have h₁ := Int.le_bmod (x := value.toNat) (m := 2 ^ 64) (by decide)
  have h₂ := Int.bmod_lt (x := value.toNat) (m := 2 ^ 64) (by decide)
  simp only [ival, toSigned]
  omega

theorem clampLong_ival (value : UInt64) : clampLong (ival value) = ival value := by
  have h₁ := Int.le_bmod (x := value.toNat) (m := 2 ^ 64) (by decide)
  have h₂ := Int.bmod_lt (x := value.toNat) (m := 2 ^ 64) (by decide)
  simp only [clampLong, ival, toSigned]
  omega

theorem uint64_ofInt_ival (value : UInt64) : UInt64.ofInt (ival value) = value := by
  have hval := value.toNat_lt
  rw [← UInt64.toNat_inj, UInt64.ofInt, UInt64.toNat_ofNat', ival, toSigned]
  have hmod : Int.bmod (value.toNat : Int) (2 ^ 64) % 2 ^ 64 = value.toNat % 2 ^ 64 :=
    Int.bmod_emod
  omega

/-- The arguments of a property. -/
def PropertyValue.args (e : PropertyValue) : List TransformArg :=
  [e.mask, e.shift, e.scale, e.offset, e.base]

/-- Arguments are enabled for integers only. -/
def PropertyValue.IntegerArgs (e : PropertyValue) : Prop :=
  ∀ arg ∈ e.args, arg.isSome → e.type.isInteger

/-- No argument is enabled for floats. -/
def PropertyValue.NoFloatArgs (e : PropertyValue) : Prop :=
  e.type.isFloat → ∀ arg ∈ e.args, arg = none

instance (e : PropertyValue) : Decidable e.IntegerArgs :=
  inferInstanceAs (Decidable (∀ arg ∈ e.args, arg.isSome → e.type.isInteger))

theorem setArg_eq {dt : DoubleText} {pt : PropertyType} {arg : TransformArg} (obj : Members)
    (name : Text) (h : ∀ value ∈ arg, (argText dt pt value).length < 32) :
    setArg dt obj name arg pt = .ok (argMember obj name (arg.map (argText dt pt))) := by
  cases arg with
  | none => rfl
  | some value =>
    have hfit : sprintf 32 (argText dt pt value) = .ok (argText dt pt value) :=
      sprintf_eq_ok.mpr ⟨rfl, h value rfl⟩
    simp only [setArg]
    rw [← argText, hfit]
    rfl

/-- What is read back of an argument of a type that is not a float. -/
theorem getTransformArg_written {dt : DoubleText} {pt : PropertyType} {arg : TransformArg}
    {obj : Option Members} {name : Text} (hfloat : pt.isFloat → arg = none)
    (hobj : jsonObjectGetValue obj name = (arg.map (argText dt pt)).map Json.string) :
    getTransformArg dt obj name pt = if arg.isSome → pt.isInteger then some arg else none := by
  cases arg with
  | none => simp [getTransformArg, hobj]
  | some value =>
    have hpt : pt.isFloat = false := by
      cases hpt : pt.isFloat with
      | false => rfl
      | true => cases hfloat hpt
    have hne := decimalInt_ne_nil (ival value)
    have hstr : getString obj name = decimalInt (ival value) := by
      rw [getString, jsonObjectGetString, hobj, Option.map_some, Option.map_some,
        jsonValueGetString_string, Option.getD_some, argText_eq_decimalInt hpt]
    have hok : ¬ (clampLong (ival value) ≠ ival value ∨ ([] : Text) ≠ []) := by
      rw [clampLong_ival]
      exact fun h => h.elim (fun h => h rfl) (fun h => h rfl)
    rw [getTransformArg, hstr, strtol0_decimalInt, if_neg hne]
    dsimp only
    rw [if_neg hok, uint64_ofInt_ival, hpt]
    simp

/-- The strings of a property. -/
def PropertyValue.strings (e : PropertyValue) : List Text :=
  [e.minimum, e.maximum, e.defaultvalue, e.lsb, e.assertion, e.precision, e.mediaType]

/-- The text of every enabled argument fits the buffer it is printed to. -/
def PropertyValue.Fits (dt : DoubleText) (e : PropertyValue) : Prop :=
  ∀ arg ∈ e.args, ∀ value ∈ arg, (argText dt e.type value).length < 32

theorem PropertyValue.NoFloatArgs.arg_none {e : PropertyValue} (h : e.NoFloatArgs)
    {arg : TransformArg} (harg : arg ∈ e.args) : e.type.isFloat → arg = none := fun hpt => h hpt arg harg

theorem PropertyValue.NoFloatArgs.not_float {e : PropertyValue} (h : e.NoFloatArgs)
    {arg : TransformArg} (harg : arg ∈ e.args) {value : UInt64} (hvalue : value ∈ arg) :
    e.type.isFloat = false := by
  cases hpt : e.type.isFloat with
  | false => rfl
  | true =>
    rw [h hpt arg harg] at hvalue
    cases hvalue

/-- Integers always fit. -/
theorem PropertyValue.NoFloatArgs.fits {e : PropertyValue} (h : e.NoFloatArgs) (dt : DoubleText) :
    e.Fits dt := by
  intro arg harg value hvalue
  rw [argText_eq_decimalInt (h.not_float harg hvalue)]
  exact decimalInt_length_lt (ival_natAbs_le value)

theorem PropertyValue.NoFloatArgs.utf8 {e : PropertyValue} (h : e.NoFloatArgs) (dt : DoubleText)
    {arg : TransformArg} (harg : arg ∈ e.args) :
    ∀ t ∈ arg.map (argText dt e.type), isValidUtf8 t = true := by
  intro t ht
  obtain ⟨value, hvalue, rfl⟩ := Option.mem_map.mp ht
  rw [argText_eq_decimalInt (h.not_float harg hvalue)]
  exact isValidUtf8_ascii fun c hc => lt_of_mem_decimalInt hc

/-- What is read back of a property that allows neither reading nor writing allows both. -/
def PropertyValue.echo (e : PropertyValue) : PropertyValue :=
  { e with readable := e.readable || !e.writable, writable := e.writable || !e.readable }

theorem rwstrings_readable (r w : Bool) :
    (rwstrings r w = [] || (rwstrings r w).contains (chr 'R')) = (r || !w) := by
  cases r <;> cases w <;> decide

theorem rwstrings_writable (r w : Bool) :
    (rwstrings r w = [] || (rwstrings r w).contains (chr 'W')) = (w || !r) := by
  cases r <;> cases w <;> decide

theorem ite_some_bind {α β : Type} {c : Prop} [Decidable c] (a : α) (f : α → Option β) :
    ((if c then some a else none) >>= f) = if c then f a else none := by
  split <;> rfl

/-- The members of a property whose arguments fit. -/
def propertyvalueMembers (dt : DoubleText) (e : PropertyValue) : Members :=
  let text (arg : TransformArg) := arg.map (argText dt e.type)
  let obj := jsonObjectSetString [] (lit "type") (edgexPropertytypeTostring e.type)
  let obj := jsonObjectSetString obj (lit "readWrite") (rwstrings e.readable e.writable)
  let obj := jsonObjectSetString obj (lit "minimum") e.minimum
  let obj := jsonObjectSetString obj (lit "maximum") e.maximum
  let obj := jsonObjectSetString obj (lit "defaultValue") e.defaultvalue
  let obj := jsonObjectSetString obj (lit "lsb") e.lsb
  let obj := argMember obj (lit "mask") (text e.mask)
  let obj := argMember obj (lit "shift") (text e.shift)
  let obj := argMember obj (lit "scale") (text e.scale)
  let obj := argMember obj (lit "offset") (text e.offset)
  let obj := argMember obj (lit "base") (text e.base)
  let obj := jsonObjectSetString obj (lit "assertion") e.assertion
  let obj := jsonObjectSetString obj (lit "precision") e.precision
  let obj := jsonObjectSetString obj (lit "floatEncoding")
    (if e.floatAsBinary then lit "base64" else lit "eNotation")
  jsonObjectSetString obj (lit "mediaType") e.mediaType

theorem propertyvalueWrite_eq {dt : DoubleText} {e : PropertyValue} (h : e.Fits dt) :
    propertyvalueWrite dt e = .ok (.object (propertyvalueMembers dt e)) := by
  simp only [PropertyValue.Fits, PropertyValue.args, List.forall_mem_cons] at h
  obtain ⟨hmask, hshift, hscale, hoffset, hbase, -⟩ := h
  simp only [propertyvalueWrite, setArg_eq _ _ hmask, setArg_eq _ _ hshift, setArg_eq _ _ hscale,
    setArg_eq _ _ hoffset, setArg_eq _ _ hbase, Checked.ok_bind]
  rfl

theorem setArg_eq_ok {dt : DoubleText} {pt : PropertyType} {arg : TransformArg}
    {obj obj' : Members} {name : Text} (h : setArg dt obj name arg pt = .ok obj') :
    ∀ value ∈ arg, (argText dt pt value).length < 32 := by
  intro value hvalue
  cases hvalue
  obtain ⟨tmp, htmp, -⟩ := Checked.bind_eq_ok.mp h
  exact (sprintf_eq_ok.mp htmp).2

/-- A property whose arguments do not all fit is not written. -/
theorem fits_of_propertyvalueWrite {dt : DoubleText} {e : PropertyValue} {doc : Json}
    (h : propertyvalueWrite dt e = .ok doc) : e.Fits dt := by
  obtain ⟨_, hmask, h⟩ := Checked.bind_eq_ok.mp h
  obtain ⟨_, hshift, h⟩ := Checked.bind_eq_ok.mp h
  obtain ⟨_, hscale, h⟩ := Checked.bind_eq_ok.mp h
  obtain ⟨_, hoffset, h⟩ := Checked.bind_eq_ok.mp h
  obtain ⟨_, hbase, h⟩ := Checked.bind_eq_ok.mp h
  simp only [PropertyValue.Fits, PropertyValue.args, List.forall_mem_cons]
  exact ⟨setArg_eq_ok hmask, setArg_eq_ok hshift, setArg_eq_ok hscale, setArg_eq_ok hoffset,
    setArg_eq_ok hbase, fun _ hnil => absurd hnil List.not_mem_nil⟩

theorem isValidUtf8_floatEncoding (b : Bool) :
    isValidUtf8 (if b then lit "base64" else lit "eNotation") = true := by
  cases b <;> decide

theorem propertyvalueReadAs_propertyvalueMembers (dt : DoubleText) {e : PropertyValue}
    (hutf : AllUtf8 e.strings) (hfloat : e.NoFloatArgs) :
    propertyvalueReadAs dt (some (propertyvalueMembers dt e)) e.type =
      if e.IntegerArgs then some e.echo else none := by
  simp only [PropertyValue.strings, allUtf8_cons, allUtf8_nil, and_true] at hutf
  obtain ⟨hminimum, hmaximum, hdefault, hlsb, hassertion, hprecision, hmedia⟩ := hutf
  have htype := isValidUtf8_propertytype e.type
  have hrw := isValidUtf8_rwstrings e.readable e.writable
  have hencoding := isValidUtf8_floatEncoding e.floatAsBinary
  have hmask : e.mask ∈ e.args := by simp [PropertyValue.args]
  have hshift : e.shift ∈ e.args := by simp [PropertyValue.args]
  have hscale : e.scale ∈ e.args := by simp [PropertyValue.args]
  have hoffset : e.offset ∈ e.args := by simp [PropertyValue.args]
  have hbase : e.base ∈ e.args := by simp [PropertyValue.args]
  have hget (arg : TransformArg) (harg : arg ∈ e.args) (name key : Text) (obj : Members) :=
    jsonObjectGetValue_argMember (hfloat.utf8 dt harg) obj name key
  have hread (arg : TransformArg) (harg : arg ∈ e.args) (name : Text) :=
    @getTransformArg_written dt e.type arg (some (propertyvalueMembers dt e)) name
      (hfloat.arg_none harg)
  -- what was written after an argument has another name
  obtain ⟨hs, ho, hb, hm, hsh⟩ :
      jsonObjectGetValue (some (propertyvalueMembers dt e)) (lit "scale") =
          (e.scale.map (argText dt e.type)).map Json.string ∧
        jsonObjectGetValue (some (propertyvalueMembers dt e)) (lit "offset") =
          (e.offset.map (argText dt e.type)).map Json.string ∧
        jsonObjectGetValue (some (propertyvalueMembers dt e)) (lit "base") =
          (e.base.map (argText dt e.type)).map Json.string ∧
        jsonObjectGetValue (some (propertyvalueMembers dt e)) (lit "mask") =
          (e.mask.map (argText dt e.type)).map Json.string ∧
        jsonObjectGetValue (some (propertyvalueMembers dt e)) (lit "shift") =
          (e.shift.map (argText dt e.type)).map Json.string := by
    refine ⟨?_, ?_, ?_, ?_, ?_⟩ <;>
      simp +decide [propertyvalueMembers, hget _ hmask, hget _ hshift, hget _ hscale,
        hget _ hoffset, hget _ hbase, *]
  -- the test that refuses masks and shifts on floats finds none
  have hnofloat : ((e.mask.isSome || e.shift.isSome) && e.type.isFloat) = false := by
    cases hpt : e.type.isFloat with
    | false => rw [Bool.and_false]
    | true => rw [hfloat hpt _ hmask, hfloat hpt _ hshift]; rfl
  rw [propertyvalueReadAs, hread _ hscale _ hs, hread _ hoffset _ ho, hread _ hbase _ hb,
    hread _ hmask _ hm, hread _ hshift _ hsh]
  simp only [ite_some_bind, hnofloat, Bool.false_eq_true, if_false, ← ite_and]
  have hiff : ((e.scale.isSome → e.type.isInteger) ∧ (e.offset.isSome → e.type.isInteger) ∧
      (e.base.isSome → e.type.isInteger) ∧ (e.mask.isSome → e.type.isInteger) ∧
      (e.shift.isSome → e.type.isInteger)) ↔ e.IntegerArgs := by
    simp only [PropertyValue.IntegerArgs, PropertyValue.args, List.forall_mem_cons,
      List.not_mem_nil, false_imp_iff, forall_const, and_true]
    tauto
  have hrwRead : getString (some (propertyvalueMembers dt e)) (lit "readWrite") =
      rwstrings e.readable e.writable := by
    simp +decide [propertyvalueMembers, hget _ hmask, hget _ hshift, hget _ hscale,
      hget _ hoffset, hget _ hbase, *]
  simp only [hiff, hrwRead, rwstrings_readable, rwstrings_writable]
  simp +decide [propertyvalueMembers, PropertyValue.echo, hget _ hmask, hget _ hshift,
    hget _ hscale, hget _ hoffset, hget _ hbase, *]

/-- The type of a property is read back whatever its strings and arguments are. -/
theorem jsonObjectGetString_propertyvalueMembers (dt : DoubleText) (e : PropertyValue) :
    jsonObjectGetString (some (propertyvalueMembers dt e)) (lit "type") =
      some (edgexPropertytypeTostring e.type) := by
  have harg {name : Text} (h : lit "type" ≠ name) (obj : Members) (text : Option Text) :
      jsonObjectGetValue (some (argMember obj name text)) (lit "type") =
        jsonObjectGetValue (some obj) (lit "type") := by
    cases text with
    | none => rfl
    | some t => exact jsonObjectGetValue_setString_ne _ h t
  have htype := isValidUtf8_propertytype e.type
  simp +decide [propertyvalueMembers, jsonObjectGetValue_setString_ne, harg, htype]

theorem propertyvalueRead_propertyvalueWrite (dt : DoubleText) {e : PropertyValue}
    (hutf : AllUtf8 e.strings) (hfloat : e.NoFloatArgs) :
    propertyvalueRead dt (some (propertyvalueMembers dt e)) =
      .ok (if e.IntegerArgs then some e.echo else none) := by
  rw [propertyvalueRead, jsonObjectGetString_propertyvalueMembers, edgexPropertytype_roundTrip,
    Checked.ok_bind, Option.bind_some, propertyvalueReadAs_propertyvalueMembers dt hutf hfloat]
  rfl

/-! ## Resources -/

/-- The texts of pairs. -/
def pairTexts (e : NvPairs) : List Text := e.map Prod.fst ++ pairValues e

/-- The strings of a resource. -/
def DeviceResource.strings (e : DeviceResource) : List Text :=
  [e.name, e.description, e.tag, e.properties.units.type, e.properties.units.readwrite,
    e.properties.units.defaultvalue] ++ (e.properties.value.strings ++ pairTexts e.attributes)

/-- What is read back of a resource. -/
def DeviceResource.echo (e : DeviceResource) : DeviceResource :=
  { e with
    properties := ⟨e.properties.value.echo, e.properties.units⟩
    attributes := (assocOf e.attributes).reverse }

theorem unitsRead_unitsWrite {e : Units}
    (hutf : AllUtf8 [e.type, e.readwrite, e.defaultvalue]) :
    unitsRead (jsonValueGetObject (some (unitsWrite e))) = e := by
  simp only [allUtf8_cons, allUtf8_nil, and_true] at hutf
  obtain ⟨htype, hreadwrite, hdefault⟩ := hutf
  simp +decide [unitsRead, unitsWrite, *]

/-- The members of a resource whose arguments fit. -/
def deviceresourceMembers (dt : DoubleText) (e : DeviceResource) : Members :=
  let value := jsonObjectSetValue [] (lit "value")
    (some (.object (propertyvalueMembers dt e.properties.value)))
  let properties := jsonObjectSetValue value (lit "units") (some (unitsWrite e.properties.units))
  let obj := jsonObjectSetString [] (lit "name") e.name
  let obj := jsonObjectSetString obj (lit "description") e.description
  let obj := jsonObjectSetString obj (lit "tag") e.tag
  let obj := jsonObjectSetValue obj (lit "properties") (some (.object properties))
  jsonObjectSetValue obj (lit "attributes") (some (nvpairsWrite e.attributes))

theorem deviceresourceWrite_eq {dt : DoubleText} {e : DeviceResource}
    (h : e.properties.value.Fits dt) :
    deviceresourceWrite dt e = .ok (.object (deviceresourceMembers dt e)) := by
  rw [deviceresourceWrite, profilepropertyWrite, propertyvalueWrite_eq h, Checked.ok_bind]
  rfl

theorem deviceresourceRead_deviceresourceMembers (dt : DoubleText) {e : DeviceResource}
    (hutf : AllUtf8 e.strings) (hfloat : e.properties.value.NoFloatArgs) :
    deviceresourceRead dt (some (deviceresourceMembers dt e)) =
      .ok (if e.properties.value.IntegerArgs then some e.echo else none) := by
  simp only [DeviceResource.strings, pairTexts, allUtf8_append, allUtf8_cons, allUtf8_nil,
    and_true] at hutf
  obtain ⟨⟨hname, hdescription, htag, htype, hreadwrite, hdefault⟩, hvalue, -, hpairs⟩ := hutf
  have hunits : AllUtf8 [e.properties.units.type, e.properties.units.readwrite,
      e.properties.units.defaultvalue] := by
    simp only [allUtf8_cons, allUtf8_nil, and_true]
    exact ⟨htype, hreadwrite, hdefault⟩
  have hpp : profilepropertyRead dt
      (jsonObjectGetObject (some (deviceresourceMembers dt e)) (lit "properties")) =
        .ok (if e.properties.value.IntegerArgs then some e.echo.properties else none) := by
    simp +decide [deviceresourceMembers, profilepropertyRead, *,
      propertyvalueRead_propertyvalueWrite dt hvalue hfloat, unitsRead_unitsWrite hunits]
    split <;> rfl
  have hattributes : nvpairsRead
      (jsonObjectGetObject (some (deviceresourceMembers dt e)) (lit "attributes")) =
        .ok (assocOf e.attributes).reverse := by
    simp +decide [deviceresourceMembers, nvpairsRead_nvpairsWrite hpairs]
  rw [deviceresourceRead, hpp, Checked.ok_bind]
  by_cases hint : e.properties.value.IntegerArgs
  · simp only [if_pos hint, hattributes, Checked.ok_bind]
    simp +decide [deviceresourceMembers, *, DeviceResource.echo]
  · simp only [if_neg hint]
    rfl

/-! ## Commands -/

/-- The strings of an operation. -/
def ResourceOperation.strings (e : ResourceOperation) : List Text :=
  [e.index, e.operation, e.object, e.property, e.parameter, e.resource] ++
    (e.secondary ++ pairTexts e.mappings)

/-- What is read back of an operation. -/
def ResourceOperation.echo (e : ResourceOperation) : ResourceOperation :=
  { e with mappings := (assocOf e.mappings).reverse }

theorem resourceoperationRead_resourceoperationWrite {e : ResourceOperation}
    (hutf : AllUtf8 e.strings) :
    resourceoperationRead (jsonValueGetObject (some (resourceoperationWrite e))) = .ok e.echo := by
  simp only [ResourceOperation.strings, pairTexts, allUtf8_append, allUtf8_cons, allUtf8_nil,
    and_true] at hutf
  obtain ⟨⟨hindex, hoperation, hobject, hproperty, hparameter, hresource⟩, hsecondary, -, hpairs⟩ :=
    hutf
  simp +decide [resourceoperationRead, resourceoperationWrite, *, nvpairsRead_nvpairsWrite hpairs,
    arrayToStrings_stringsToArray hsecondary, ResourceOperation.echo]

/-- The strings of a command. -/
def DeviceCommand.strings (e : DeviceCommand) : List Text :=
  e.name :: (e.set ++ e.get).flatMap ResourceOperation.strings

/-- What is read back of a command: the operations of `get` were written behind those of `set`. -/
def DeviceCommand.echo (e : DeviceCommand) : DeviceCommand :=
  { e with set := (e.set ++ e.get).map ResourceOperation.echo, get := [] }

theorem devicecommandRead_devicecommandWrite {e : DeviceCommand} (hutf : AllUtf8 e.strings) :
    devicecommandRead (jsonValueGetObject (some (devicecommandWrite e))) = .ok e.echo := by
  rw [DeviceCommand.strings, allUtf8_cons] at hutf
  obtain ⟨hname, hops⟩ := hutf
  have hop : ∀ op ∈ e.set ++ e.get,
      resourceoperationRead (jsonValueGetObject (some (resourceoperationWrite op))) =
        .ok op.echo := by
    intro op hmem
    apply resourceoperationRead_resourceoperationWrite
    exact fun s hs => hops s (List.mem_flatMap.mpr ⟨op, hmem, hs⟩)
  have hset : resourceoperationsRead
      (some ((e.set ++ e.get).map resourceoperationWrite)) = .ok _ := Checked.mapM_map_eq_ok hop
  have hget : resourceoperationsRead (some []) = .ok [] := rfl
  rw [List.map_append] at hset
  simp +decide [devicecommandRead, devicecommandWrite, *, DeviceCommand.echo]

/-- The loop over the commands of a written profile. -/
theorem devicecommandsRead_written {l : List DeviceCommand} (h : ∀ c ∈ l, AllUtf8 c.strings) :
    (l.map devicecommandWrite).mapM
        (fun item => devicecommandRead (jsonValueGetObject (some item))) =
      .ok (l.map DeviceCommand.echo) :=
  Checked.mapM_map_eq_ok fun c hc => devicecommandRead_devicecommandWrite (h c hc)

/-! ## Profiles -/

/-- The strings of a profile. -/
def DeviceProfile.strings (e : DeviceProfile) : List Text :=
  [e.id, e.name, e.description, e.manufacturer, e.model] ++ (e.labels ++
    (e.deviceResources.flatMap DeviceResource.strings ++
      e.deviceCommands.flatMap DeviceCommand.strings))

/-- The numbers of a profile. -/
def DeviceProfile.counts (e : DeviceProfile) : List UInt64 := [e.created, e.modified, e.origin]

/-- What is read back of a profile. -/
def DeviceProfile.echo (e : DeviceProfile) : DeviceProfile :=
  { e with
    deviceResources := e.deviceResources.map DeviceResource.echo
    deviceCommands := e.deviceCommands.map DeviceCommand.echo
    cmdinfo := [] }

/-- The members of a profile whose arguments fit. -/
def deviceprofileMembers (dt : DoubleText) (e : DeviceProfile) : Members :=
  let obj := jsonObjectSetString [] (lit "id") e.id
  let obj := jsonObjectSetNumber obj (lit "created") e.created
  let obj := jsonObjectSetNumber obj (lit "modified") e.modified
  let obj := jsonObjectSetString obj (lit "name") e.name
  let obj := jsonObjectSetString obj (lit "description") e.description
  let obj := jsonObjectSetNumber obj (lit "origin") e.origin
  let obj := jsonObjectSetString obj (lit "manufacturer") e.manufacturer
  let obj := jsonObjectSetString obj (lit "model") e.model
  let obj := jsonObjectSetValue obj (lit "labels") (some (stringsToArray e.labels))
  let obj := jsonObjectSetValue obj (lit "deviceResources")
    (some (.array (e.deviceResources.map fun r => .object (deviceresourceMembers dt r))))
  jsonObjectSetValue obj (lit "deviceCommands")
    (some (.array (e.deviceCommands.map devicecommandWrite)))

theorem deviceprofileMembers_resources (dt : DoubleText) (e : DeviceProfile) :
    jsonArrayItems
        (jsonObjectGetArray (some (deviceprofileMembers dt e)) (lit "deviceResources")) =
      e.deviceResources.map fun r => .object (deviceresourceMembers dt r) := by
  simp +decide [deviceprofileMembers]

theorem deviceprofileMembers_commands (dt : DoubleText) (e : DeviceProfile) :
    jsonArrayItems
        (jsonObjectGetArray (some (deviceprofileMembers dt e)) (lit "deviceCommands")) =
      e.deviceCommands.map devicecommandWrite := by
  simp +decide [deviceprofileMembers]

theorem deviceprofileWrite_eq {dt : DoubleText} {e : DeviceProfile}
    (h : ∀ r ∈ e.deviceResources, r.properties.value.Fits dt) :
    deviceprofileWrite dt e false = .ok (.object (deviceprofileMembers dt e)) := by
  have hresources := Checked.mapM_eq_ok fun r hr => deviceresourceWrite_eq (h r hr)
  rw [deviceprofileWrite, hresources, Checked.ok_bind]
  rfl

theorem deviceresourcesRead_written (dt : DoubleText) {l : List DeviceResource}
    (h : ∀ r ∈ l, AllUtf8 r.strings ∧ r.properties.value.NoFloatArgs) :
    deviceresourcesRead dt (l.map fun r => .object (deviceresourceMembers dt r)) =
      .ok (if ∀ r ∈ l, r.properties.value.IntegerArgs then some (l.map DeviceResource.echo)
        else none) := by
  induction l with
  | nil => simp [deviceresourcesRead]
  | cons r l ih =>
    rw [List.forall_mem_cons] at h
    rw [List.map_cons, deviceresourcesRead, jsonValueGetObject_object,
      deviceresourceRead_deviceresourceMembers dt h.1.1 h.1.2, Checked.ok_bind]
    by_cases hint : r.properties.value.IntegerArgs
    · simp only [ih h.2, Checked.ok_bind, List.forall_mem_cons, hint, true_and, if_true]
      split <;> rfl
    · simp only [List.forall_mem_cons, hint, false_and, if_false]
      rfl

/-- What is read back of a written profile. -/
theorem deviceprofileRead_deviceprofileMembers (dt : DoubleText) {e : DeviceProfile}
    (hutf : AllUtf8 e.strings) (hexact : AllExact e.counts)
    (hfloat : ∀ r ∈ e.deviceResources, r.properties.value.NoFloatArgs) :
    deviceprofileRead dt (some (deviceprofileMembers dt e)) =
      .ok (if ∀ r ∈ e.deviceResources, r.properties.value.IntegerArgs then some e.echo
        else none) := by
  simp only [DeviceProfile.strings, allUtf8_append, allUtf8_cons, allUtf8_nil, and_true] at hutf
  simp only [DeviceProfile.counts, allExact_cons, allExact_nil, and_true] at hexact
  obtain ⟨⟨hid, hname, hdescription, hmanufacturer, hmodel⟩, hlabels, hresources, hcommands⟩ := hutf
  obtain ⟨hcreated, hmodified, horigin⟩ := hexact
  have hres := deviceresourcesRead_written dt (l := e.deviceResources) fun r hr =>
    ⟨fun s hs => hresources s (List.mem_flatMap.mpr ⟨r, hr, hs⟩), hfloat r hr⟩
  have hcmd := devicecommandsRead_written (l := e.deviceCommands) fun c hc s hs =>
    hcommands s (List.mem_flatMap.mpr ⟨c, hc, hs⟩)
  rw [deviceprofileRead, deviceprofileMembers_resources, hres, Checked.ok_bind,
    deviceprofileMembers_commands, hcmd]
  -- one resource with a transform that is no integer, and the whole profile is refused
  by_cases hint : ∀ r ∈ e.deviceResources, r.properties.value.IntegerArgs
  · rw [if_pos hint, if_pos hint]
    simp +decide [deviceprofileMembers, *, arrayToStrings_stringsToArray hlabels,
      DeviceProfile.echo]
  · rw [if_neg hint, if_neg hint]
    rfl

/-! ## The same profile -/

/-- The same resource, its attributes in any order. -/
structure DeviceResource.Same (a b : DeviceResource) : Prop where
  name : a.name = b.name
  description : a.description = b.description
  tag : a.tag = b.tag
  properties : a.properties = b.properties
  attributes : SameMap a.attributes b.attributes

/-- The same operation, its mappings in any order. -/
structure ResourceOperation.Same (a b : ResourceOperation) : Prop where
  index : a.index = b.index
  operation : a.operation = b.operation
  object : a.object = b.object
  property : a.property = b.property
  parameter : a.parameter = b.parameter
  resource : a.resource = b.resource
  secondary : a.secondary = b.secondary
  mappings : SameMap a.mappings b.mappings

/-- The same command, operation for operation. -/
structure DeviceCommand.Same (a b : DeviceCommand) : Prop where
  name : a.name = b.name
  set : List.Forall₂ ResourceOperation.Same a.set b.set
  get : List.Forall₂ ResourceOperation.Same a.get b.get

/-- The same profile, resource for resource and command for command. -/
structure DeviceProfile.Same (a b : DeviceProfile) : Prop where
  id : a.id = b.id
  name : a.name = b.name
  description : a.description = b.description
  created : a.created = b.created
  modified : a.modified = b.modified
  origin : a.origin = b.origin
  manufacturer : a.manufacturer = b.manufacturer
  model : a.model = b.model
  labels : a.labels = b.labels
  deviceResources : List.Forall₂ DeviceResource.Same a.deviceResources b.deviceResources
  deviceCommands : List.Forall₂ DeviceCommand.Same a.deviceCommands b.deviceCommands

theorem forall₂_map_left_self {α : Type} {R : α → α → Prop} {f : α → α} {l : List α} :
    List.Forall₂ R (l.map f) l ↔ ∀ x ∈ l, R (f x) x := by
  rw [List.forall₂_map_left_iff, List.forall₂_same]

theorem PropertyValue.echo_eq_self {e : PropertyValue} :
    e.echo = e ↔ e.readable ∨ e.writable := by
  obtain ⟨_, r, w⟩ := e
  cases r <;> cases w <;> simp [PropertyValue.echo]

theorem DeviceResource.echo_same {e : DeviceResource} :
    e.echo.Same e ↔
      (e.properties.value.readable ∨ e.properties.value.writable) ∧ Consistent e.attributes := by
  constructor
  · intro h
    have hvalue : e.properties.value.echo = e.properties.value :=
      congrArg ProfileProperty.value h.properties
    exact ⟨PropertyValue.echo_eq_self.mp hvalue, sameMap_assocOf_reverse.mp h.attributes⟩
  · rintro ⟨hrw, hattributes⟩
    have hproperties : e.echo.properties = e.properties := by
      rw [DeviceResource.echo, PropertyValue.echo_eq_self.mpr hrw]
    exact ⟨rfl, rfl, rfl, hproperties, sameMap_assocOf_reverse.mpr hattributes⟩

theorem ResourceOperation.echo_same {e : ResourceOperation} :
    e.echo.Same e ↔ Consistent e.mappings :=
  ⟨fun h => sameMap_assocOf_reverse.mp h.mappings,
    fun h => ⟨rfl, rfl, rfl, rfl, rfl, rfl, rfl, sameMap_assocOf_reverse.mpr h⟩⟩

theorem DeviceCommand.echo_same {e : DeviceCommand} :
    e.echo.Same e ↔ e.get = [] ∧ ∀ op ∈ e.set, Consistent op.mappings := by
  constructor
  · intro h
    have hget : e.get = [] := (List.forall₂_nil_left_iff.mp h.get)
    have hset := h.set
    simp only [DeviceCommand.echo, hget, List.append_nil, forall₂_map_left_self] at hset
    exact ⟨hget, fun op hop => ResourceOperation.echo_same.mp (hset op hop)⟩
  · rintro ⟨hget, hset⟩
    refine ⟨rfl, ?_, ?_⟩
    · simp only [DeviceCommand.echo, hget, List.append_nil, forall₂_map_left_self]
      exact fun op hop => ResourceOperation.echo_same.mpr (hset op hop)
    · rw [hget]
      exact List.Forall₂.nil

/-- A profile that comes back as it was: every resource may be read or written, a name that comes
twice among attributes or mappings has one value, and no command can be read. -/
structure DeviceProfile.Stable (e : DeviceProfile) : Prop where
  access : ∀ r ∈ e.deviceResources, r.properties.value.readable ∨ r.properties.value.writable
  args : ∀ r ∈ e.deviceResources, r.properties.value.IntegerArgs
  attributes : ∀ r ∈ e.deviceResources, Consistent r.attributes
  mappings : ∀ c ∈ e.deviceCommands, ∀ op ∈ c.set, Consistent op.mappings
  get : ∀ c ∈ e.deviceCommands, c.get = []

theorem DeviceProfile.echo_same {e : DeviceProfile} :
    e.echo.Same e ↔
      (∀ r ∈ e.deviceResources, r.echo.Same r) ∧ ∀ c ∈ e.deviceCommands, c.echo.Same c := by
  constructor
  · intro h
    exact ⟨forall₂_map_left_self.mp h.deviceResources, forall₂_map_left_self.mp h.deviceCommands⟩
  · rintro ⟨hresources, hcommands⟩
    exact ⟨rfl, rfl, rfl, rfl, rfl, rfl, rfl, rfl, rfl, forall₂_map_left_self.mpr hresources,
      forall₂_map_left_self.mpr hcommands⟩

/-- The profile is written, the text is read, and what is read is the profile. -/
def DeviceProfile.RoundTrips (parson : Parson) (dt : DoubleText) (e : DeviceProfile) : Prop :=
  ∃ text q, edgexDeviceprofileWrite parson dt e false = .ok text ∧
    edgexDeviceprofileRead parson dt text = .ok (some q) ∧ q.Same e

/-- A profile comes back as it was when it is its own echo and has no argument that is not an
integer. -/
theorem DeviceProfile.roundTrips_iff_echo {parson : Parson} {dt : DoubleText} {e : DeviceProfile}
    (hutf : AllUtf8 e.strings) (hexact : AllExact e.counts)
    (hfloat : ∀ r ∈ e.deviceResources, r.properties.value.NoFloatArgs)
    (hparson : ∀ doc, deviceprofileWrite dt e false = .ok doc → parson.ParsesBack doc) :
    e.RoundTrips parson dt ↔
      (∀ r ∈ e.deviceResources, r.properties.value.IntegerArgs) ∧ e.echo.Same e := by
  have hwrite := deviceprofileWrite_eq fun r hr => (hfloat r hr).fits dt
  have hback := hparson _ hwrite
  have htext : edgexDeviceprofileWrite parson dt e false =
      .ok (parson.serialize (.object (deviceprofileMembers dt e))) := by
    rw [edgexDeviceprofileWrite, hwrite]
    rfl
  have hread : edgexDeviceprofileRead parson dt
      (parson.serialize (.object (deviceprofileMembers dt e))) =
        .ok (if ∀ r ∈ e.deviceResources, r.properties.value.IntegerArgs then some e.echo
          else none) := by
    rw [edgexDeviceprofileRead, hback, jsonValueGetObject_object]
    exact deviceprofileRead_deviceprofileMembers dt hutf hexact hfloat
  constructor
  · rintro ⟨text, q, hw, hr, hsame⟩
    cases htext.symm.trans hw
    have hq := Except.ok.inj (hread.symm.trans hr)
    split at hq
    · next hint =>
      cases hq
      exact ⟨hint, hsame⟩
    · cases hq
  · rintro ⟨hint, hsame⟩
    exact ⟨_, e.echo, htext, hread.trans (by rw [if_pos hint]), hsame⟩

/-- The operations of `get` are written behind those of `set`: a profile survives exactly when no
command has any, apart from resources without access, arguments of types that are not numeric and
names with two values. -/
theorem deviceprofile_roundTrips_iff {parson : Parson} {dt : DoubleText} {e : DeviceProfile}
    (hutf : AllUtf8 e.strings) (hcounts : ∀ n ∈ e.counts, n.toNat < 2 ^ 53)
    (hfloat : ∀ r ∈ e.deviceResources, r.properties.value.NoFloatArgs)
    (hparson : ∀ doc, deviceprofileWrite dt e false = .ok doc → parson.ParsesBack doc) :
    e.RoundTrips parson dt ↔ e.Stable := by
  rw [DeviceProfile.roundTrips_iff_echo hutf (allExact_of_lt hcounts) hfloat hparson,
    DeviceProfile.echo_same]
  constructor
  · rintro ⟨hint, hresources, hcommands⟩
    exact {
      access := fun r hr => (DeviceResource.echo_same.mp (hresources r hr)).1
      args := hint
      attributes := fun r hr => (DeviceResource.echo_same.mp (hresources r hr)).2
      mappings := fun c hc => (DeviceCommand.echo_same.mp (hcommands c hc)).2
      get := fun c hc => (DeviceCommand.echo_same.mp (hcommands c hc)).1 }
  · intro h
    exact ⟨h.args, fun r hr => DeviceResource.echo_same.mpr ⟨h.access r hr, h.attributes r hr⟩,
      fun c hc => DeviceCommand.echo_same.mpr ⟨h.get c hc, h.mappings c hc⟩⟩

/-! ### A lamp -/

/-- Conversions for profiles without floats. -/
def DoubleText.empty : DoubleText := ⟨fun _ => none, fun _ => []⟩

/-- A switch that is read and written, with a scale of 10. -/
def lampSwitch : DeviceResource where
  description := []
  name := lit "Switch"
  tag := []
  properties :=
    { value :=
        { type := .uint8, readable := true, writable := true, minimum := lit "0"
          maximum := lit "1", defaultvalue := [], lsb := [], mask := none, shift := none
          scale := some 10, offset := none, base := none, assertion := [], precision := []
          mediaType := [], floatAsBinary := true }
      units := ⟨lit "String", lit "R", []⟩ }
  attributes := [(lit "cluster", lit "6"), (lit "endpoint", lit "1")]

/-- An operation on the switch. -/
def lampOperation : ResourceOperation where
  index := lit "1"
  operation := lit "get"
  object := lit "Switch"
  property := lit "value"
  parameter := lit "Switch"
  resource := []
  secondary := []
  mappings := []

/-- A profile with one command. -/
def lampProfile (set get : List ResourceOperation) : DeviceProfile where
  id := lit "p1"
  name := lit "Lamp"
  description := []
  created := 1577836800000
  modified := 1577836800000
  origin := 0
  manufacturer := []
  model := []
  labels := [lit "zigbee"]
  deviceResources := [lampSwitch]
  deviceCommands := [⟨lit "OnOff", set, get⟩]
  cmdinfo := []

/-- The parson of the lamp's document. -/
def lampParson (set get : List ResourceOperation) : Parson :=
  .knowing (.object (deviceprofileMembers .empty (lampProfile set get)))

theorem lampParson_parsesBack {set get : List ResourceOperation} {doc : Json}
    (h : deviceprofileWrite .empty (lampProfile set get) false = .ok doc) :
    (lampParson set get).ParsesBack doc := by
  have hfits : ∀ r ∈ (lampProfile set get).deviceResources, r.properties.value.Fits .empty := by
    intro r hr
    rw [List.mem_singleton.mp hr]
    exact PropertyValue.NoFloatArgs.fits (fun h => absurd h (by decide)) _
  cases (deviceprofileWrite_eq hfits).symm.trans h
  exact Parson.knowing_parsesBack _

theorem lampProfile_noFloatArgs (set get : List ResourceOperation) :
    ∀ r ∈ (lampProfile set get).deviceResources, r.properties.value.NoFloatArgs := by
  intro r hr
  rw [List.mem_singleton.mp hr]
  exact fun h => absurd h (by decide)

theorem lampProfile_exact (set get : List ResourceOperation) :
    ∀ n ∈ (lampProfile set get).counts, n.toNat < 2 ^ 53 := by
  simp [DeviceProfile.counts, lampProfile]

/-- Written to only, the lamp's profile survives. -/
theorem lampProfile_roundTrips :
    (lampProfile [lampOperation] []).RoundTrips (lampParson [lampOperation] []) .empty :=
  (deviceprofile_roundTrips_iff (by decide) (lampProfile_exact _ _) (lampProfile_noFloatArgs _ _)
    fun _ => lampParson_parsesBack).mpr
    { access := by simp [lampProfile, lampSwitch]
      args := by simp [lampProfile, lampSwitch, PropertyValue.IntegerArgs, PropertyType.isInteger]
      attributes := by
        intro r hr key
        rw [List.mem_singleton.mp hr]
        exact assocGet_reverse (by decide) key
      mappings := by
        intro c hc op hop key
        rw [List.mem_singleton.mp hc] at hop
        rw [List.mem_singleton.mp hop]
        rfl
      get := by simp [lampProfile] }

/-- Read from, it comes back with a command that writes. -/
theorem lampProfile_get_lost :
    AllUtf8 (lampProfile [] [lampOperation]).strings ∧
      (∀ n ∈ (lampProfile [] [lampOperation]).counts, n.toNat < 2 ^ 53) ∧
      (∀ r ∈ (lampProfile [] [lampOperation]).deviceResources,
        r.properties.value.NoFloatArgs) ∧
      ¬ (lampProfile [] [lampOperation]).RoundTrips (lampParson [] [lampOperation]) .empty := by
  have hutf : AllUtf8 (lampProfile [] [lampOperation]).strings := by decide
  have hcounts := lampProfile_exact [] [lampOperation]
  have hfloat := lampProfile_noFloatArgs [] [lampOperation]
  refine ⟨hutf, hcounts, hfloat, ?_⟩
  rw [DeviceProfile.roundTrips_iff_echo hutf (allExact_of_lt hcounts) hfloat
    fun _ => lampParson_parsesBack]
  rintro ⟨-, hsame⟩
  have hcommand := (DeviceProfile.echo_same.mp hsame).2 _ (List.mem_singleton_self _)
  cases (DeviceCommand.echo_same.mp hcommand).1

end Zigbee
