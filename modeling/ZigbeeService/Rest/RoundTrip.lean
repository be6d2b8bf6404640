-- SUMMARY: Records written as JSON and read back: services, addressables, value descriptors, profiles and devices.
import ZigbeeService.Rest.Read

/-!
# Round trips

What a reader makes of the document its writer produced. Parson does not store a text that is not
valid UTF-8, and a count from 2^53 on may be rounded on its way through a double.
-/

namespace Zigbee

open CLib

/-- All texts are valid UTF-8. -/
def AllUtf8 (ss : List Text) : Prop := ∀ s ∈ ss, isValidUtf8 s = true

/-- All counts go through a double unchanged. -/
def AllExact (ns : List UInt64) : Prop := ∀ n ∈ ns, uint64OfDouble (doubleOfUint64 n) = n

instance (ss : List Text) : Decidable (AllUtf8 ss) :=
  inferInstanceAs (Decidable (∀ s ∈ ss, isValidUtf8 s = true))

section Lists

variable {s : Text} {ss : List Text} {n : UInt64} {ns : List UInt64}

theorem allUtf8_nil : AllUtf8 [] := fun _ h => absurd h List.not_mem_nil

theorem allUtf8_cons : AllUtf8 (s :: ss) ↔ isValidUtf8 s = true ∧ AllUtf8 ss :=
  List.forall_mem_cons

theorem allUtf8_append {ss' : List Text} : AllUtf8 (ss ++ ss') ↔ AllUtf8 ss ∧ AllUtf8 ss' :=
  List.forall_mem_append

theorem allExact_nil : AllExact [] := fun _ h => absurd h List.not_mem_nil

theorem allExact_cons :
    AllExact (n :: ns) ↔ uint64OfDouble (doubleOfUint64 n) = n ∧ AllExact ns :=
  List.forall_mem_cons

theorem allExact_of_lt (h : ∀ n ∈ ns, n.toNat < 2 ^ 53) : AllExact ns := fun n hn =>
  uint64OfDouble_doubleOfUint64 (h n hn)

end Lists

/-! ## Lists of strings -/

theorem stringsToArray_eq {ss : Strings} (h : AllUtf8 ss) :
    stringsToArray ss = .array (ss.map .string) := by
  rw [stringsToArray, foldl_jsonArrayAppendString h, List.nil_append]

theorem arrayToStrings_stringsToArray {ss : Strings} (h : AllUtf8 ss) :
    arrayToStrings (jsonValueGetArray (some (stringsToArray ss))) = ss := by
  rw [stringsToArray_eq h, jsonValueGetArray_array, arrayToStrings, jsonArrayItems_some,
    List.map_map]
  exact List.map_id ss

/-! ## Pairs -/

/-- The values of the pairs. -/
def pairValues (e : NvPairs) : List Text := e.map Prod.snd

theorem nvpairsWrite_eq {e : NvPairs} (h : AllUtf8 (pairValues e)) :
    nvpairsWrite e = .object ((assocOf e).map (Prod.map id .string)) := by
  have hfold : ∀ obj : Members,
      e.foldl (fun obj nv => jsonObjectSetString obj nv.1 nv.2) obj =
        (e.map (Prod.map id Json.string)).foldl (fun l p => assocSet p.1 p.2 l) obj := by
    induction e with
    | nil => exact fun _ => rfl
    | cons nv e ih =>
      intro obj
      rw [pairValues, List.map_cons, allUtf8_cons] at h
      rw [List.foldl_cons, jsonObjectSetString_valid _ _ h.1, ih h.2, List.map_cons,
        List.foldl_cons]
      rfl
  rw [nvpairsWrite, hfold, ← assocOf_map]
  rfl

/-- A document of strings is read from its last member to its first. -/
theorem nvpairsRead_strings (l : NvPairs) :
    nvpairsRead (some (l.map (Prod.map id .string))) = .ok l.reverse := by
  have hfold : ∀ result : NvPairs,
      (l.map (Prod.map id Json.string)).foldlM nvpairsReadMember result =
        .ok (l.reverse ++ result) := by
    induction l with
    | nil => exact fun _ => rfl
    | cons nv l ih =>
      intro result
      rw [List.map_cons, List.foldlM_cons, Prod.map, nvpairsReadMember, jsonValueGetString_string]
      rw [Checked.ok_bind, ih, List.reverse_cons, List.append_assoc]
      rfl
  rw [nvpairsRead, jsonObjectMembers_some, hfold, List.append_nil]

theorem nvpairsRead_nvpairsWrite {e : NvPairs} (h : AllUtf8 (pairValues e)) :
    nvpairsRead (jsonValueGetObject (some (nvpairsWrite e))) = .ok (assocOf e).reverse := by
  rw [nvpairsWrite_eq h, jsonValueGetObject_object, nvpairsRead_strings]

/-- Pairs whose name comes again carry the same value at its first and its last place. -/
def Consistent (e : NvPairs) : Prop := SameMap e.reverse e

/-! ## Enumerations -/

theorem edgexAdminstate_roundTrip (ad : AdminState) :
    edgexAdminstateFromstring (some (edgexAdminstateTostring ad)) = ad := by
  cases ad <;> decide

theorem edgexOperatingstate_roundTrip (op : OperatingState) :
    edgexOperatingstateFromstring (some (edgexOperatingstateTostring op)) = op := by
  cases op <;> decide

theorem isValidUtf8_adminstate (ad : AdminState) :
    isValidUtf8 (edgexAdminstateTostring ad) = true := by
  cases ad <;> decide

theorem isValidUtf8_operatingstate (op : OperatingState) :
    isValidUtf8 (edgexOperatingstateTostring op) = true := by
  cases op <;> decide

/-! ## Addressables -/

/-- The strings of an addressable. -/
def Addressable.strings (e : Addressable) : List Text :=
  [e.address, e.id, e.method, e.name, e.password, e.path, e.protocol, e.publisher, e.topic, e.user]

/-- The numbers of an addressable. -/
def Addressable.counts (e : Addressable) : List UInt64 := [e.created, e.modified, e.origin, e.port]

attribute [local simp] getString getCount getBoolean jsonObjectGetString jsonObjectGetNumber
  jsonObjectGetObject jsonObjectGetArray jsonObjectGetBoolean jsonObjectSetNumber
  jsonObjectSetBoolean jsonObjectSetString_valid

/-- Whatever the port is, the rest of an addressable comes back. -/
theorem addressableRead_port {e : Addressable} (hutf : AllUtf8 e.strings)
    (hexact : AllExact [e.created, e.modified, e.origin]) :
    addressableRead (jsonValueGetObject (some (addressableWrite e false))) =
      { e with port := uint64OfDouble (doubleOfUint64 e.port) } := by
  simp only [Addressable.strings, allUtf8_cons, allUtf8_nil, and_true] at hutf
  simp only [allExact_cons, allExact_nil, and_true] at hexact
  obtain ⟨haddress, hid, hmethod, hname, hpassword, hpath, hprotocol, hpublisher, htopic, huser⟩ :=
    hutf
  obtain ⟨hcreated, hmodified, horigin⟩ := hexact
  simp +decide [addressableRead, addressableWrite, *]

theorem addressableRead_addressableWrite {e : Addressable} (hutf : AllUtf8 e.strings)
    (hexact : AllExact e.counts) :
    addressableRead (jsonValueGetObject (some (addressableWrite e false))) = e := by
  simp only [Addressable.counts, allExact_cons, allExact_nil, and_true] at hexact
  obtain ⟨hcreated, hmodified, horigin, hport⟩ := hexact
  rw [addressableRead_port hutf, hport]
  simp only [allExact_cons, allExact_nil, and_true]
  exact ⟨hcreated, hmodified, horigin⟩

/-- What a writer leaves of an addressable: a new one is sent without its id and its times. -/
def Addressable.asSent (e : Addressable) (create : Bool) : Addressable :=
  if create then { e with id := [], created := 0, modified := 0 } else e

/-- An addressable that is written comes back as it is sent. -/
theorem addressableRead_asSent {e : Addressable} (create : Bool) (hutf : AllUtf8 e.strings)
    (hexact : AllExact e.counts) :
    addressableRead (jsonValueGetObject (some (addressableWrite e create))) = e.asSent create := by
  cases create with
  | false => exact addressableRead_addressableWrite hutf hexact
  | true =>
    simp only [Addressable.strings, allUtf8_cons, allUtf8_nil, and_true] at hutf
    simp only [Addressable.counts, allExact_cons, allExact_nil, and_true] at hexact
    obtain ⟨haddress, -, hmethod, hname, hpassword, hpath, hprotocol, hpublisher, htopic, huser⟩ :=
      hutf
    obtain ⟨-, -, horigin, hport⟩ := hexact
    simp +decide [addressableRead, addressableWrite, Addressable.asSent, *]

/-! ## Services -/

/-- The strings of a service, apart from its addressable. -/
def DeviceService.strings (e : DeviceService) : List Text := [e.description, e.id, e.name] ++ e.labels

/-- The numbers of a service, apart from its addressable. -/
def DeviceService.counts (e : DeviceService) : List UInt64 :=
  [e.created, e.lastConnected, e.lastReported, e.modified, e.origin]

/-- A service that has no addressable cannot be written. -/
theorem deviceserviceWrite_eq_ok {e : DeviceService} {doc : Json}
    (h : deviceserviceWrite e false = .ok doc) : ∃ a, e.addressable = some a := by
  cases haddr : e.addressable with
  | none =>
    rw [deviceserviceWrite, haddr] at h
    cases h
  | some a => exact ⟨a, rfl⟩

/-- What is read back of a service: all of it but its addressable, which is read back on its own. -/
theorem deviceserviceRead_deviceserviceWrite {e : DeviceService} {a : Addressable}
    (haddr : e.addressable = some a) (hutf : AllUtf8 e.strings) (hexact : AllExact e.counts) :
    ∃ doc, deviceserviceWrite e false = .ok (.object doc) ∧
      deviceserviceRead (some doc) =
        { e with
          addressable :=
            some (addressableRead (jsonValueGetObject (some (addressableWrite a false)))) } := by
  simp only [DeviceService.strings, List.cons_append, List.nil_append, allUtf8_cons] at hutf
  simp only [DeviceService.counts, allExact_cons, allExact_nil, and_true] at hexact
  obtain ⟨hdescription, hid, hname, hlabels⟩ := hutf
  obtain ⟨hcreated, hconnected, hreported, hmodified, horigin⟩ := hexact
  refine ⟨_, by rw [deviceserviceWrite, haddr]; rfl, ?_⟩
  have hadmin := isValidUtf8_adminstate e.adminState
  have hop := isValidUtf8_operatingstate e.operatingState
  simp +decide [deviceserviceRead, *, edgexAdminstate_roundTrip, edgexOperatingstate_roundTrip,
    arrayToStrings_stringsToArray]

/-- What a writer leaves of a service: a new one is sent without its id and its times. -/
def DeviceService.asSent (e : DeviceService) (create : Bool) : DeviceService :=
  if create then { e with id := [], created := 0, modified := 0 } else e

/-- A service that is written comes back as it is sent. -/
theorem deviceserviceRead_asSent {e : DeviceService} {a : Addressable} (create : Bool)
    (haddr : e.addressable = some a) (hutf : AllUtf8 (e.strings ++ a.strings))
    (hexact : AllExact (e.counts ++ a.counts)) :
    ∃ doc, deviceserviceWrite e create = .ok (.object doc) ∧
      deviceserviceRead (some doc) = e.asSent create := by
  rw [allUtf8_append] at hutf
  have hservice : AllExact e.counts := fun n hn => hexact n (List.mem_append_left _ hn)
  have haddressable := addressableRead_addressableWrite hutf.2 fun n hn =>
    hexact n (List.mem_append_right _ hn)
  cases create with
  | false =>
    obtain ⟨doc, hwrite, hread⟩ := deviceserviceRead_deviceserviceWrite haddr hutf.1 hservice
    exact ⟨doc, hwrite, by rw [hread, haddressable, ← haddr]; rfl⟩
  | true =>
    obtain ⟨hservicetexts, -⟩ := hutf
    simp only [DeviceService.strings, List.cons_append, List.nil_append, allUtf8_cons]
      at hservicetexts
    simp only [DeviceService.counts, allExact_cons, allExact_nil, and_true] at hservice
    obtain ⟨hdescription, -, hname, hlabels⟩ := hservicetexts
    obtain ⟨-, hconnected, hreported, -, horigin⟩ := hservice
    refine ⟨_, by rw [deviceserviceWrite, haddr]; rfl, ?_⟩
    have hadmin := isValidUtf8_adminstate e.adminState
    have hop := isValidUtf8_operatingstate e.operatingState
    simp +decide [deviceserviceRead, DeviceService.asSent, *, edgexAdminstate_roundTrip,
      edgexOperatingstate_roundTrip, arrayToStrings_stringsToArray]

/-! ## Value descriptors -/

/-- The strings of a value descriptor. -/
def ValueDescriptor.strings (e : ValueDescriptor) : List Text :=
  [e.defaultValue, e.description, e.formatting, e.id, e.max, e.min, e.name, e.type, e.uomLabel,
    e.mediaType, e.floatEncoding] ++ e.labels

/-- The numbers of a value descriptor. -/
def ValueDescriptor.counts (e : ValueDescriptor) : List UInt64 := [e.created, e.modified, e.origin]

theorem valuedescriptorRead_valuedescriptorWrite {e : ValueDescriptor} (hutf : AllUtf8 e.strings)
    (hexact : AllExact e.counts) :
    valuedescriptorRead (jsonValueGetObject (some (valuedescriptorWrite e))) = e := by
  simp only [ValueDescriptor.strings, List.cons_append, List.nil_append, allUtf8_cons] at hutf
  simp only [ValueDescriptor.counts, allExact_cons, allExact_nil, and_true] at hexact
  obtain ⟨hdefault, hdescription, hformatting, hid, hmax, hmin, hname, htype, huom, hmedia,
    hencoding, hlabels⟩ := hutf
  obtain ⟨hcreated, hmodified, horigin⟩ := hexact
  simp +decide [valuedescriptorRead, valuedescriptorWrite, *, arrayToStrings_stringsToArray]

/-! ## Texts -/

mutual

/-- `json_serialize_to_string` of a document with whole numbers and without characters to escape. -/
def plainText : Json → Text
  | .null => lit "null"
  | .boolean b => if b then lit "true" else lit "false"
  | .number x => decimalInt x.floor
  | .string s => chr '"' :: s ++ lit "\""
  | .array items => chr '[' :: plainItems items ++ lit "]"
  | .object ms => lit "\x7b" ++ plainMembers ms ++ lit "\x7d"

/-- The items of an array, separated by commas. -/
def plainItems : List Json → Text
  | [] => []
  | [v] => plainText v
  | v :: vs => plainText v ++ chr ',' :: plainItems vs

/-- The members of an object, separated by commas. -/
def plainMembers : List (Text × Json) → Text
  | [] => []
  | [(name, v)] => chr '"' :: name ++ lit "\":" ++ plainText v
  | (name, v) :: ms => chr '"' :: name ++ lit "\":" ++ plainText v ++ chr ',' :: plainMembers ms

end

/-- Parson as far as one document needs it. -/
def Parson.knowing (doc : Json) : Parson where
  parse text := if text = plainText doc then some doc else none
  serialize := plainText

theorem Parson.knowing_parsesBack (doc : Json) : (Parson.knowing doc).ParsesBack doc := if_pos rfl

/-! ## Services, addressables and value descriptors -/

section Records

variable {parson : Parson}

theorem deviceservice_roundTrip {e : DeviceService} {a : Addressable}
    (haddr : e.addressable = some a) (hutf : AllUtf8 (e.strings ++ a.strings))
    (hexact : AllExact (e.counts ++ a.counts))
    (hparson : ∀ doc, deviceserviceWrite e false = .ok doc → parson.ParsesBack doc) :
    ∃ text, edgexDeviceserviceWrite parson e false = .ok text ∧
      edgexDeviceserviceRead parson text = some e := by
  rw [allUtf8_append] at hutf
  have hservice : AllExact e.counts := fun n hn => hexact n (List.mem_append_left _ hn)
  have haddressable : AllExact a.counts := fun n hn => hexact n (List.mem_append_right _ hn)
  obtain ⟨doc, hwrite, hread⟩ :=
    deviceserviceRead_deviceserviceWrite haddr hutf.1 hservice
  have hback := hparson _ hwrite
  refine ⟨parson.serialize (.object doc), by rw [edgexDeviceserviceWrite, hwrite]; rfl, ?_⟩
  rw [edgexDeviceserviceRead, hback, jsonValueGetObject_object, Option.map_some, hread,
    addressableRead_addressableWrite hutf.2 haddressable, ← haddr]

theorem addressable_roundTrip {e : Addressable} (hutf : AllUtf8 e.strings)
    (hexact : AllExact e.counts) (hparson : parson.ParsesBack (addressableWrite e false)) :
    edgexAddressableRead parson (edgexAddressableWrite parson e false) = some e := by
  have hread := addressableRead_addressableWrite hutf hexact
  rw [edgexAddressableRead, edgexAddressableWrite, hparson]
  exact congrArg some hread

theorem valuedescriptor_roundTrip {e : ValueDescriptor} (hutf : AllUtf8 e.strings)
    (hexact : AllExact e.counts) (hparson : parson.ParsesBack (valuedescriptorWrite e)) :
    edgexValuedescriptorRead parson (edgexValuedescriptorWrite parson e) = some e := by
  have hread := valuedescriptorRead_valuedescriptorWrite hutf hexact
  rw [edgexValuedescriptorRead, edgexValuedescriptorWrite, hparson]
  exact congrArg some hread

end Records

/-- Services, addressables and value descriptors come back as they were written. -/
theorem records_roundTrip (parson : Parson) :
    (∀ (e : DeviceService) (a : Addressable), e.addressable = some a →
      AllUtf8 (e.strings ++ a.strings) → (∀ n ∈ e.counts ++ a.counts, n.toNat < 2 ^ 53) →
      (∀ doc, deviceserviceWrite e false = .ok doc → parson.ParsesBack doc) →
        ∃ text, edgexDeviceserviceWrite parson e false = .ok text ∧
          edgexDeviceserviceRead parson text = some e) ∧
    (∀ a : Addressable, AllUtf8 a.strings → (∀ n ∈ a.counts, n.toNat < 2 ^ 53) →
      parson.ParsesBack (addressableWrite a false) →
        edgexAddressableRead parson (edgexAddressableWrite parson a false) = some a) ∧
    (∀ v : ValueDescriptor, AllUtf8 v.strings → (∀ n ∈ v.counts, n.toNat < 2 ^ 53) →
      parson.ParsesBack (valuedescriptorWrite v) →
        edgexValuedescriptorRead parson (edgexValuedescriptorWrite parson v) = some v) := by
  refine ⟨?_, ?_, ?_⟩
  · intro e a haddr hutf hcounts hparson
    exact deviceservice_roundTrip haddr hutf (allExact_of_lt hcounts) hparson
  · intro a hutf hcounts hparson
    exact addressable_roundTrip hutf (allExact_of_lt hcounts) hparson
  · intro v hutf hcounts hparson
    exact valuedescriptor_roundTrip hutf (allExact_of_lt hcounts) hparson

/-- The address of a device service. -/
def zigbeeAddressable : Addressable where
  address := lit "zigbee"
  created := 1577836800000
  id := lit "a1"
  method := lit "POST"
  modified := 1577836800001
  name := lit "device-zigbee"
  origin := 3
  password := []
  path := lit "/api/v1/callback"
  port := 49990
  protocol := lit "HTTP"
  publisher := lit "none"
  topic := lit "none"
  user := [0xC3, 0xA9]

/-- A device service with two labels. -/
def zigbeeService : DeviceService where
  addressable := some zigbeeAddressable
  adminState := .locked
  created := 1577836800000
  description := lit "Zigbee"
  id := lit "s1"
  labels := [lit "b", lit "a"]
  lastConnected := 1
  lastReported := 2
  modified := 1577836800001
  name := lit "device-zigbee"
  operatingState := .disabled
  origin := 9007199254740991

/-- A value descriptor with a label. -/
def switchDescriptor : ValueDescriptor where
  created := 5
  defaultValue := lit "0"
  description := lit "A switch"
  formatting := lit "%s"
  id := lit "v1"
  labels := [lit "onoff"]
  max := lit "1"
  min := lit "0"
  modified := 6
  name := lit "Switch"
  origin := 7
  type := lit "u"
  uomLabel := lit "String"
  mediaType := []
  floatEncoding := lit "base64"

theorem zigbeeService_exact :
    ∀ n ∈ zigbeeService.counts ++ zigbeeAddressable.counts, n.toNat < 2 ^ 53 := by
  simp [DeviceService.counts, Addressable.counts, zigbeeService, zigbeeAddressable]

/-- The service, its addressable and the value descriptor come back. -/
theorem zigbeeService_roundTrip :
    (∃ text, edgexDeviceserviceWrite
        (.knowing (((deviceserviceWrite zigbeeService false).toOption).getD .null))
          zigbeeService false = .ok text ∧
      edgexDeviceserviceRead
        (.knowing (((deviceserviceWrite zigbeeService false).toOption).getD .null)) text =
          some zigbeeService) ∧
    (∃ text, edgexAddressableRead (.knowing (addressableWrite zigbeeAddressable false)) text =
      some zigbeeAddressable) ∧
    ∃ text, edgexValuedescriptorRead (.knowing (valuedescriptorWrite switchDescriptor)) text =
      some switchDescriptor := by
  refine ⟨(records_roundTrip _).1 _ zigbeeAddressable rfl (by decide) zigbeeService_exact ?_,
    ⟨_, (records_roundTrip _).2.1 _ (by decide) ?_ (Parson.knowing_parsesBack _)⟩,
    ⟨_, (records_roundTrip _).2.2 _ (by decide) ?_ (Parson.knowing_parsesBack _)⟩⟩
  · intro doc hdoc
    rw [hdoc]
    exact Parson.knowing_parsesBack doc
  · simp [Addressable.counts, zigbeeAddressable]
  · simp [ValueDescriptor.counts, switchDescriptor]

end Zigbee
