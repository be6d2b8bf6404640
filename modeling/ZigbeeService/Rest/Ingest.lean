-- SUMMARY: Which documents the device readers turn into complete devices without following a NULL pointer.
import ZigbeeService.Lib.Arith
import ZigbeeService.Rest.Read
import ZigbeeService.Sdk.CmdInfo

/-!
# Documents that can be read

The readers check little: a missing type, a value that is not a string, or the name of a resource
that does not exist goes through to what follows the pointer. The conditions below are on the
document alone, one for each reader.
-/

namespace Zigbee

open CLib

/-! ## Conditions on a document -/

/-- The items of an array member. -/
def itemsOf (obj : Option Members) (name : Text) : List Json :=
  jsonArrayItems (jsonObjectGetArray obj name)

/-- Every member is a string, as `nvpairs_read` needs it. -/
def StringMembers (obj : Option Members) : Prop :=
  ∀ member ∈ jsonObjectMembers obj, ∃ s, member.2 = .string s

/-- A transform argument is missing or empty, or a number that its type can hold. Only integers are
masked and shifted. -/
def ArgReadable (dt : DoubleText) (obj : Option Members) (pt : PropertyType) (name : Text) : Prop :=
  let str := getString obj name
  str = [] ∨
    (pt.isInteger = true ∧ inLongLong (strtol0 str).1 ∧ (strtol0 str).2 = []) ∨
    (pt.isFloat = true ∧ (dt.strtod str).isSome = true ∧ name ≠ lit "mask" ∧ name ≠ lit "shift")

/-- The transform arguments of a property. -/
def transformArgs : List Text := [lit "scale", lit "offset", lit "base", lit "mask", lit "shift"]

/-- What `propertyvalue_read` needs: the name of a type, in whatever case, and arguments for it. -/
def PropertyReadable (dt : DoubleText) (obj : Option Members) : Prop :=
  ∃ str pt, jsonObjectGetString obj (lit "type") = some str ∧
    strcaseeq str (proptypes pt) = true ∧ ∀ name ∈ transformArgs, ArgReadable dt obj pt name

/-- What `deviceresource_read` needs. -/
def ResourceReadable (dt : DoubleText) (obj : Option Members) : Prop :=
  PropertyReadable dt
      (jsonObjectGetObject (jsonObjectGetObject obj (lit "properties")) (lit "value")) ∧
    StringMembers (jsonObjectGetObject obj (lit "attributes"))

/-- What `resourceoperation_read` needs, and that the operation is about one of the resources. -/
def OperationReadable (resources : List Json) (obj : Option Members) : Prop :=
  StringMembers (jsonObjectGetObject obj (lit "mappings")) ∧
    ∃ res ∈ resources,
      getString (jsonValueGetObject (some res)) (lit "name") = getString obj (lit "object")

/-- What `deviceprofile_read` needs to give a profile whose operations are about its resources. -/
def ProfileReadable (dt : DoubleText) (obj : Option Members) : Prop :=
  let resources := itemsOf obj (lit "deviceResources")
  (∀ item ∈ resources, ResourceReadable dt (jsonValueGetObject (some item))) ∧
    ∀ cmd ∈ itemsOf obj (lit "deviceCommands"),
      ∀ op ∈ itemsOf (jsonValueGetObject (some cmd)) (lit "set") ++
          itemsOf (jsonValueGetObject (some cmd)) (lit "get"),
        OperationReadable resources (jsonValueGetObject (some op))

/-- What `device_read` needs to give a complete device. -/
def DeviceReadable (dt : DoubleText) (obj : Option Members) : Prop :=
  (∀ member ∈ jsonObjectMembers (jsonObjectGetObject obj (lit "protocols")),
      StringMembers (jsonValueGetObject (some member.2))) ∧
    ProfileReadable dt (jsonObjectGetObject obj (lit "profile"))

/-- What the readers of devices need of a parsed text: an object is a device, an array holds some,
and anything else holds none. -/
def Ingestible (dt : DoubleText) : Option Json → Prop
  | some (.object obj) => DeviceReadable dt (some obj)
  | some (.array items) => ∀ item ∈ items, DeviceReadable dt (jsonValueGetObject (some item))
  | _ => True

/-! ## Pairs -/

section Readers

variable {dt : DoubleText} {obj : Option Members}

theorem nvpairsReadMember_returns_iff (result : NvPairs) (member : Text × Json) :
    (∃ r, nvpairsReadMember result member = .ok r) ↔ ∃ s, member.2 = .string s := by
  obtain ⟨name, v⟩ := member
  unfold nvpairsReadMember
  cases v with
  | string s => exact ⟨fun _ => ⟨s, rfl⟩, fun _ => ⟨_, rfl⟩⟩
  | _ => exact ⟨fun ⟨_, h⟩ => (nomatch h), fun ⟨_, h⟩ => (nomatch h)⟩

theorem nvpairsRead_returns_iff :
    (∃ r, nvpairsRead obj = .ok r) ↔ StringMembers obj :=
  Checked.foldlM_returns_iff nvpairsReadMember_returns_iff _ _

theorem protocolsRead_returns_iff :
    (∃ r, protocolsRead obj = .ok r) ↔
      ∀ member ∈ jsonObjectMembers obj, StringMembers (jsonValueGetObject (some member.2)) := by
  refine Checked.foldlM_returns_iff (fun result member => ?_) _ _
  rw [← nvpairsRead_returns_iff]
  simp only [protocolsReadMember, Checked.bind_eq_ok]
  constructor
  · rintro ⟨_, properties, hread, -⟩
    exact ⟨properties, hread⟩
  · rintro ⟨properties, hread⟩
    exact ⟨_, properties, hread, rfl⟩

/-! ## Properties -/

theorem clampLong_eq_self_iff {x : Int} : clampLong x = x ↔ inLongLong x := by
  unfold clampLong inLongLong
  omega

/-- An argument is read, and a float has neither a mask nor a shift. -/
theorem argReadable_iff {name : Text} {pt : PropertyType} :
    ArgReadable dt obj pt name ↔ ∃ arg, getTransformArg dt obj name pt = some arg ∧
      (pt.isFloat = true → name = lit "mask" ∨ name = lit "shift" → arg = none) := by
  unfold ArgReadable getTransformArg
  dsimp only
  by_cases hempty : getString obj name = []
  · simp [hempty]
  · by_cases hint : pt.isInteger = true
    · have hfloat : pt.isFloat = false := by
        cases pt with
        | float32 | float64 => cases hint
        | _ => rfl
      simp [hempty, hint, hfloat, clampLong_eq_self_iff]
    · by_cases hfloat : pt.isFloat = true
      · cases hstrtod : dt.strtod (getString obj name) with
        | none => simp [hempty, hint, hfloat]
        | some bits => simp [hempty, hint, hfloat]
      · simp [hempty, hint, hfloat]

theorem propertyvalueReadAs_isSome_iff {pt : PropertyType} :
    (∃ val, propertyvalueReadAs dt obj pt = some val) ↔
      ∀ name ∈ transformArgs, ArgReadable dt obj pt name := by
  have hplain {name : Text} (hname : ¬ (name = lit "mask" ∨ name = lit "shift")) :
      ArgReadable dt obj pt name ↔ ∃ arg, getTransformArg dt obj name pt = some arg := by
    simp only [argReadable_iff, hname, false_imp_iff, implies_true, and_true]
  have hbits {name : Text} (hname : name = lit "mask" ∨ name = lit "shift") :
      ArgReadable dt obj pt name ↔ ∃ arg, getTransformArg dt obj name pt = some arg ∧
        (pt.isFloat = true → arg = none) := by
    simp only [argReadable_iff, hname, true_imp_iff]
  -- a mask or a shift on a float refuses the property after all arguments were read
  have hargs : (∀ name ∈ transformArgs, ArgReadable dt obj pt name) ↔
      ArgReadable dt obj pt (lit "scale") ∧ ArgReadable dt obj pt (lit "offset") ∧
        ArgReadable dt obj pt (lit "base") ∧ ArgReadable dt obj pt (lit "mask") ∧
          ArgReadable dt obj pt (lit "shift") := by
    simp [transformArgs]
  rw [hargs, hplain (by decide), hplain (by decide), hplain (by decide), hbits (by decide),
    hbits (by decide)]
  simp only [propertyvalueReadAs, Option.bind_eq_bind, Option.bind_eq_some_iff]
  constructor
  · rintro ⟨val, scale, hscale, offset, hoffset, base, hbase, mask, hmask, shift, hshift, hval⟩
    split at hval
    · cases hval
    · next hfloat =>
      refine ⟨⟨scale, hscale⟩, ⟨offset, hoffset⟩, ⟨base, hbase⟩, ⟨mask, hmask, ?_⟩,
        ⟨shift, hshift, ?_⟩⟩ <;> intro hpt <;> simp_all
  · rintro ⟨⟨scale, hscale⟩, ⟨offset, hoffset⟩, ⟨base, hbase⟩, ⟨mask, hmask, hmask'⟩,
      ⟨shift, hshift, hshift'⟩⟩
    have hfloat : ¬ ((mask.isSome || shift.isSome) && pt.isFloat) = true := by
      intro hand
      rw [Bool.and_eq_true] at hand
      simp [hmask' hand.2, hshift' hand.2] at hand
    exact ⟨_, scale, hscale, offset, hoffset, base, hbase, mask, hmask, shift, hshift,
      if_neg hfloat⟩

/-- Types have different names, in whatever case. -/
theorem strcaseeq_proptypes_unique {str : Text} {pt pt' : PropertyType}
    (h : strcaseeq str (proptypes pt) = true) (h' : strcaseeq str (proptypes pt') = true) :
    pt = pt' := by
  have hnames : ∀ pt ∈ PropertyType.all, ∀ pt' ∈ PropertyType.all,
      (proptypes pt).map tolower = (proptypes pt').map tolower → pt = pt' := by decide
  have hall : ∀ pt : PropertyType, pt ∈ PropertyType.all := by
    intro pt
    cases pt <;> decide
  simp only [strcaseeq, decide_eq_true_eq] at h h'
  exact hnames pt (hall pt) pt' (hall pt') (h.symm.trans h')

theorem propertytypeFromstring_eq_some_iff {str : Text} {pt : PropertyType} :
    (PropertyType.all.find? fun i => strcaseeq str (proptypes i)) = some pt ↔
      strcaseeq str (proptypes pt) = true := by
  constructor
  · intro h
    simpa using List.find?_some h
  · intro h
    cases hfind : PropertyType.all.find? fun i => strcaseeq str (proptypes i) with
    | none =>
      have hmem : pt ∈ PropertyType.all := by cases pt <;> decide
      exact absurd h (by simpa using List.find?_eq_none.mp hfind pt hmem)
    | some pt' =>
      have h' : strcaseeq str (proptypes pt') = true := by simpa using List.find?_some hfind
      rw [strcaseeq_proptypes_unique h h']

theorem propertyvalueRead_isSome_iff :
    (∃ val, propertyvalueRead dt obj = .ok (some val)) ↔ PropertyReadable dt obj := by
  unfold propertyvalueRead PropertyReadable
  cases htype : jsonObjectGetString obj (lit "type") with
  | none =>
    constructor
    · rintro ⟨val, hread⟩
      cases hread
    · rintro ⟨str, pt, hstr, -⟩
      cases hstr
  | some str =>
    simp only [edgexPropertytypeFromstring, Checked.ok_bind, Checked.pure_eq, Except.ok.injEq,
      Option.bind_eq_some_iff, propertytypeFromstring_eq_some_iff, Option.some.injEq]
    constructor
    · rintro ⟨val, pt, hpt, hval⟩
      exact ⟨str, pt, rfl, hpt, propertyvalueReadAs_isSome_iff.mp ⟨val, hval⟩⟩
    · rintro ⟨_, pt, rfl, hpt, hargs⟩
      obtain ⟨val, hval⟩ := propertyvalueReadAs_isSome_iff.mpr hargs
      exact ⟨val, pt, hpt, hval⟩

/-! ## Profiles -/

theorem deviceresourceRead_isSome_iff :
    (∃ r, deviceresourceRead dt obj = .ok (some r)) ↔ ResourceReadable dt obj := by
  unfold ResourceReadable
  rw [← propertyvalueRead_isSome_iff, ← nvpairsRead_returns_iff]
  simp only [deviceresourceRead, profilepropertyRead, Checked.bind_eq_ok]
  constructor
  · rintro ⟨r, pp, ⟨val, hval, hpp⟩, h⟩
    cases hpp
    cases val with
    | none => cases h
    | some val =>
      obtain ⟨attributes, hattributes, -⟩ := Checked.bind_eq_ok.mp h
      exact ⟨⟨val, hval⟩, attributes, hattributes⟩
  · rintro ⟨⟨val, hval⟩, attributes, hattributes⟩
    exact ⟨_, _, ⟨_, hval, rfl⟩, Checked.bind_eq_ok.mpr ⟨attributes, hattributes, rfl⟩⟩

theorem deviceresourceRead_name {r : DeviceResource}
    (h : deviceresourceRead dt obj = .ok (some r)) : r.name = getString obj (lit "name") := by
  obtain ⟨pp, -, h⟩ := Checked.bind_eq_ok.mp h
  cases pp with
  | none => cases h
  | some properties =>
    obtain ⟨attributes, -, h⟩ := Checked.bind_eq_ok.mp h
    cases h
    rfl

/-- The loop over the resources goes through when each of them parses. -/
theorem deviceresourcesRead_isSome_iff {items : List Json} :
    (∃ rs, deviceresourcesRead dt items = .ok (some rs)) ↔
      ∀ item ∈ items, ResourceReadable dt (jsonValueGetObject (some item)) := by
  induction items with
  | nil => exact ⟨fun _ => nofun, fun _ => ⟨[], rfl⟩⟩
  | cons item items ih =>
    rw [List.forall_mem_cons, ← ih, ← deviceresourceRead_isSome_iff]
    simp only [deviceresourcesRead, Checked.bind_eq_ok]
    constructor
    · rintro ⟨rs, temp, hitem, h⟩
      cases temp with
      | none => cases h
      | some r =>
        obtain ⟨rest, hrest, h⟩ := Checked.bind_eq_ok.mp h
        cases rest with
        | none => cases h
        | some rest => exact ⟨⟨r, hitem⟩, rest, hrest⟩
    · rintro ⟨⟨r, hitem⟩, rest, hrest⟩
      refine ⟨r :: rest, some r, hitem, ?_⟩
      dsimp only
      rw [hrest]
      rfl

/-- The resources have the names that the items give. -/
theorem deviceresourcesRead_names {items : List Json} {rs : List DeviceResource}
    (h : deviceresourcesRead dt items = .ok (some rs)) :
    rs.map DeviceResource.name =
      items.map fun item => getString (jsonValueGetObject (some item)) (lit "name") := by
  induction items generalizing rs with
  | nil =>
    cases h
    rfl
  | cons item items ih =>
    obtain ⟨temp, hitem, h⟩ := Checked.bind_eq_ok.mp h
    cases temp with
    | none => cases h
    | some r =>
      obtain ⟨rest, hrest, h⟩ := Checked.bind_eq_ok.mp h
      cases rest with
      | none => cases h
      | some rest =>
        cases h
        rw [List.map_cons, List.map_cons, ih hrest, deviceresourceRead_name hitem]

theorem resourceoperationRead_returns_iff :
    (∃ ro, resourceoperationRead obj = .ok ro) ↔
      StringMembers (jsonObjectGetObject obj (lit "mappings")) := by
  rw [← nvpairsRead_returns_iff]
  simp only [resourceoperationRead, Checked.bind_eq_ok]
  constructor
  · rintro ⟨_, mappings, hmappings, -⟩
    exact ⟨mappings, hmappings⟩
  · rintro ⟨mappings, hmappings⟩
    exact ⟨_, mappings, hmappings, rfl⟩

theorem resourceoperationRead_object {ro : ResourceOperation}
    (h : resourceoperationRead obj = .ok ro) : ro.object = getString obj (lit "object") := by
  obtain ⟨mappings, -, h⟩ := Checked.bind_eq_ok.mp h
  cases h
  rfl

/-- The objects of the operations in an array. -/
def objectsIn (items : List Json) : List Text :=
  items.map fun op => getString (jsonValueGetObject (some op)) (lit "object")

theorem resourceoperationsRead_returns_iff {array : Option (List Json)} :
    (∃ ros, resourceoperationsRead array = .ok ros) ↔ ∀ op ∈ jsonArrayItems array,
      StringMembers (jsonObjectGetObject (jsonValueGetObject (some op)) (lit "mappings")) := by
  rw [resourceoperationsRead, Checked.mapM_returns_iff]
  simp only [resourceoperationRead_returns_iff]

theorem resourceoperationsRead_objects {array : Option (List Json)} {ros : List ResourceOperation}
    (h : resourceoperationsRead array = .ok ros) :
    ros.map ResourceOperation.object = objectsIn (jsonArrayItems array) :=
  Checked.map_of_mapM (fun _ _ hread => resourceoperationRead_object hread) h

theorem devicecommandRead_returns_iff :
    (∃ cmd, devicecommandRead obj = .ok cmd) ↔
      ∀ op ∈ itemsOf obj (lit "set") ++ itemsOf obj (lit "get"),
        StringMembers (jsonObjectGetObject (jsonValueGetObject (some op)) (lit "mappings")) := by
  rw [List.forall_mem_append, itemsOf, itemsOf, ← resourceoperationsRead_returns_iff,
    ← resourceoperationsRead_returns_iff]
  simp only [devicecommandRead, Checked.bind_eq_ok]
  constructor
  · rintro ⟨_, set, hset, get, hget, -⟩
    exact ⟨⟨set, hset⟩, get, hget⟩
  · rintro ⟨⟨set, hset⟩, get, hget⟩
    exact ⟨_, set, hset, get, hget, rfl⟩

theorem devicecommandRead_objects {cmd : DeviceCommand} (h : devicecommandRead obj = .ok cmd) :
    (cmd.set ++ cmd.get).map ResourceOperation.object =
      objectsIn (itemsOf obj (lit "set") ++ itemsOf obj (lit "get")) := by
  obtain ⟨set, hset, h⟩ := Checked.bind_eq_ok.mp h
  obtain ⟨get, hget, h⟩ := Checked.bind_eq_ok.mp h
  cases h
  rw [List.map_append, resourceoperationsRead_objects hset, resourceoperationsRead_objects hget,
    objectsIn, objectsIn, objectsIn, List.map_append]
  rfl

/-- That operations are about resources is a matter of their names. -/
theorem opsNamed_iff {p : DeviceProfile} :
    p.OpsNamed ↔ ∀ objects ∈ p.deviceCommands.map fun cmd =>
        (cmd.set ++ cmd.get).map ResourceOperation.object,
      ∀ object ∈ objects, object ∈ p.deviceResources.map DeviceResource.name := by
  rw [List.forall_mem_map]
  refine forall₂_congr fun cmd _ => ?_
  rw [List.forall_mem_map]
  simp only [List.mem_map]

/-- A profile can be read, with operations about its resources, exactly when the document says so. -/
theorem deviceprofileRead_opsNamed_iff :
    (∃ p, deviceprofileRead dt obj = .ok (some p) ∧ p.OpsNamed) ↔ ProfileReadable dt obj := by
  have hcommands : (∃ cmds, (itemsOf obj (lit "deviceCommands")).mapM
        (fun item => devicecommandRead (jsonValueGetObject (some item))) = .ok cmds) ↔ _ :=
    Checked.mapM_returns_iff
  simp only [devicecommandRead_returns_iff] at hcommands
  have hobjects {cmds : List DeviceCommand} (h : (itemsOf obj (lit "deviceCommands")).mapM
      (fun item => devicecommandRead (jsonValueGetObject (some item))) = .ok cmds) :=
    Checked.map_of_mapM (fun _ _ hread => devicecommandRead_objects hread) h
  simp only [deviceprofileRead, Checked.bind_eq_ok]
  constructor
  · rintro ⟨p, ⟨resources, hresources, h⟩, hnamed⟩
    cases resources with
    | none => cases h
    | some resources =>
      obtain ⟨cmds, hcmds, h⟩ := Checked.bind_eq_ok.mp h
      cases h
      refine ⟨deviceresourcesRead_isSome_iff.mp ⟨resources, hresources⟩, ?_⟩
      intro cmd hcmd op hop
      refine ⟨hcommands.mp ⟨cmds, hcmds⟩ cmd hcmd op hop, ?_⟩
      -- that an operation is about a resource is carried over to the names in the document
      rw [opsNamed_iff] at hnamed
      dsimp only at hnamed
      rw [hobjects hcmds, deviceresourcesRead_names hresources] at hnamed
      have hmem := hnamed _ (List.mem_map_of_mem hcmd) _ (List.mem_map_of_mem hop)
      obtain ⟨res, hres, hname⟩ := List.mem_map.mp hmem
      exact ⟨res, hres, hname⟩
  · rintro ⟨hresources, hops⟩
    obtain ⟨resources, hresources⟩ := deviceresourcesRead_isSome_iff.mpr hresources
    obtain ⟨cmds, hcmds⟩ := hcommands.mpr fun cmd hcmd op hop => (hops cmd hcmd op hop).1
    refine ⟨_, ⟨some resources, hresources, Checked.bind_eq_ok.mpr ⟨cmds, hcmds, rfl⟩⟩, ?_⟩
    rw [opsNamed_iff]
    dsimp only
    rw [hobjects hcmds, deviceresourcesRead_names hresources]
    simp only [List.forall_mem_map, objectsIn]
    intro cmd hcmd op hop
    obtain ⟨-, res, hres, hname⟩ := hops cmd hcmd op hop
    exact List.mem_map.mpr ⟨res, hres, hname⟩

/-! ## Devices -/

/-- A device with a service and a profile, whose operations are about its resources. -/
structure Device.Complete (d : Device) : Prop where
  service : ∃ service, d.service = some service
  profile : ∃ p, d.profile = some p ∧ p.OpsNamed

theorem deviceRead_complete_iff :
    (∃ d, deviceRead dt obj = .ok d ∧ d.Complete) ↔ DeviceReadable dt obj := by
  unfold DeviceReadable
  rw [← protocolsRead_returns_iff, ← deviceprofileRead_opsNamed_iff]
  simp only [deviceRead, Checked.bind_eq_ok]
  constructor
  · rintro ⟨d, ⟨protocols, hprotocols, profile, hprofile, h⟩, hcomplete⟩
    cases h
    obtain ⟨p, rfl, hnamed⟩ := hcomplete.profile
    exact ⟨⟨protocols, hprotocols⟩, p, hprofile, hnamed⟩
  · rintro ⟨⟨protocols, hprotocols⟩, p, hprofile, hnamed⟩
    exact ⟨_, ⟨protocols, hprotocols, some p, hprofile, rfl⟩, ⟨_, rfl⟩, p, rfl, hnamed⟩

end Readers

end Zigbee
