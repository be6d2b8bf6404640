-- SUMMARY: Records as the texts that parson.c prints and parses: what a writer makes is parsed back.
import ZigbeeService.Parson.RoundTrip
import ZigbeeService.Rest.DeviceRoundTrip

/-!
# Records as texts

The readers and writers of `edgex-rest.c` on the texts of `parson.c`. Every document a writer makes is
one that a C program can hold, so that the parser finds it again in the text.
-/

namespace Zigbee

open CLib

/-- `json_parse_string` and `json_serialize_to_string` of `parson.c`. -/
def Doubles.parson (d : Doubles) : Parson where
  parse := jsonParseString d
  serialize v := jsonText d false v 0

/-- No text holds a NUL. -/
def CStrings (ss : List Text) : Prop := ∀ s ∈ ss, 0 ∉ s

instance (ss : List Text) : Decidable (CStrings ss) :=
  inferInstanceAs (Decidable (∀ s ∈ ss, 0 ∉ s))

theorem cstrings_cons {s : Text} {ss : List Text} :
    CStrings (s :: ss) ↔ 0 ∉ s ∧ CStrings ss := List.forall_mem_cons

theorem cstrings_append {ss ss' : List Text} :
    CStrings (ss ++ ss') ↔ CStrings ss ∧ CStrings ss' := List.forall_mem_append

theorem cstrings_flatMap {α : Type} {f : α → List Text} {l : List α} :
    CStrings (l.flatMap f) ↔ ∀ a ∈ l, CStrings (f a) := by
  simp only [CStrings, List.forall_mem_flatMap]

-- ---------------------------------------------------------------------------
-- Objects member by member
-- ---------------------------------------------------------------------------

/-- The members of a well-formed object. -/
structure MembersOk (P : Rat → Prop) (levels : Nat) (obj : Members) : Prop where
  nodup : (obj.map Prod.fst).Nodup
  members : ∀ m ∈ obj, 0 ∉ m.1 ∧ WellFormed P levels m.2

section Members

variable {P : Rat → Prop} {levels : Nat} {obj : Members} {s : Text} {v : Json}

theorem membersOk_nil : MembersOk P levels [] := ⟨.nil, List.forall_mem_nil _⟩

theorem MembersOk.object (h : MembersOk P levels obj) : WellFormed P (levels + 1) (.object obj) :=
  ⟨h.nodup, h.members⟩

theorem MembersOk.setValue (h : MembersOk P levels obj) (name : Text) (hname : 0 ∉ name)
    (hv : WellFormed P levels v) : MembersOk P levels (jsonObjectSetValue obj name (some v)) where
  nodup := nodup_assocSet h.nodup
  members m hm := by
    rcases mem_assocSet hm with rfl | hm
    · exact ⟨hname, hv⟩
    · exact h.members m hm

theorem wellFormed_string (h : 0 ∉ s) : WellFormed P (levels + 1) (.string s) := h

theorem MembersOk.setString (h : MembersOk P (levels + 1) obj) (name : Text) (hname : 0 ∉ name)
    (hs : 0 ∉ s) :
    MembersOk P (levels + 1) (jsonObjectSetString obj name s) := by
  rw [jsonObjectSetString, jsonValueInitString]
  split
  · exact h.setValue name hname (wellFormed_string hs)
  · exact h

theorem MembersOk.setNumber {n : UInt64} (h : MembersOk P (levels + 1) obj) (name : Text)
    (hname : 0 ∉ name) (hn : P (doubleOfUint64 n)) :
    MembersOk P (levels + 1) (jsonObjectSetNumber obj name n) :=
  h.setValue name hname hn

theorem MembersOk.setBoolean {b : Bool} (h : MembersOk P (levels + 1) obj) (name : Text)
    (hname : 0 ∉ name) :
    MembersOk P (levels + 1) (jsonObjectSetBoolean obj name b) :=
  h.setValue name hname trivial

/-- What a record that is not new starts with. -/
theorem membersOk_own (create : Bool) {id : Text} {created modified : UInt64} (hid : 0 ∉ id)
    (hcreated : P (doubleOfUint64 created)) (hmodified : P (doubleOfUint64 modified)) :
    MembersOk P (levels + 1) (if !create then
      jsonObjectSetNumber (jsonObjectSetNumber (jsonObjectSetString [] (lit "id") id)
        (lit "created") created) (lit "modified") modified else []) := by
  split
  · have obj : MembersOk P (levels + 1) [] := membersOk_nil
    have obj := obj.setString (lit "id") (by decide) hid
    have obj := obj.setNumber (lit "created") (by decide) hcreated
    exact obj.setNumber (lit "modified") (by decide) hmodified
  · exact membersOk_nil

theorem wellFormed_stringsToArray {ss : Strings} (h : CStrings ss) :
    WellFormed P (levels + 2) (stringsToArray ss) := by
  have hfold : ∀ items : List Json, (∀ v ∈ items, WellFormed P (levels + 1) v) →
      ∀ v ∈ ss.foldl jsonArrayAppendString items, WellFormed P (levels + 1) v := by
    induction ss with
    | nil => exact fun _ hitems => hitems
    | cons s ss ih =>
      rw [cstrings_cons] at h
      intro items hitems
      refine ih h.2 _ ?_
      rw [jsonArrayAppendString, jsonValueInitString]
      split
      · exact hitems
      · next hsome =>
        obtain ⟨-, hv⟩ := Option.ite_none_right_eq_some.mp hsome
        rw [List.forall_mem_append, ← Option.some_inj.mp hv]
        exact ⟨hitems, List.forall_mem_singleton.mpr h.1⟩
  exact hfold [] (List.forall_mem_nil _)

theorem wellFormed_nvpairsWrite {e : NvPairs} (h : CStrings (pairTexts e)) :
    WellFormed P (levels + 2) (nvpairsWrite e) := by
  have hfold : ∀ obj : Members, MembersOk P (levels + 1) obj →
      MembersOk P (levels + 1) (e.foldl (fun obj nv => jsonObjectSetString obj nv.1 nv.2) obj) := by
    induction e with
    | nil => exact fun _ hobj => hobj
    | cons nv e ih =>
      simp only [pairTexts, pairValues, List.map_cons, List.cons_append, cstrings_cons,
        cstrings_append] at h ih
      obtain ⟨hname, hnames, hvalue, hvalues⟩ := h
      exact fun obj hobj => ih ⟨hnames, hvalues⟩ _ (hobj.setString _ hname hvalue)
  exact (hfold [] membersOk_nil).object

end Members

-- ---------------------------------------------------------------------------
-- Profiles
-- ---------------------------------------------------------------------------

section Profiles

variable {P : Rat → Prop} {levels : Nat} {dt : DoubleText}

theorem nul_notMem_decimalInt (x : Int) : 0 ∉ decimalInt x := fun hmem =>
  absurd (eq_minus_or_isdigit hmem) (by decide)

theorem MembersOk.setArg {obj obj' : Members} {name : Text} {arg : TransformArg}
    {pt : PropertyType} (hdt : ∀ value, 0 ∉ dt.printf value) (hobj : MembersOk P (levels + 1) obj)
    (hname : 0 ∉ name) (h : setArg dt obj name arg pt = .ok obj') :
    MembersOk P (levels + 1) obj' := by
  cases arg with
  | none =>
    cases h
    exact hobj
  | some value =>
    obtain ⟨tmp, htmp, hset⟩ := Checked.bind_eq_ok.mp h
    cases hset
    obtain ⟨rfl, -⟩ := sprintf_eq_ok.mp htmp
    refine hobj.setString _ hname ?_
    split
    · exact hdt value
    · exact nul_notMem_decimalInt _

theorem nul_notMem_propertytype (pt : PropertyType) : 0 ∉ edgexPropertytypeTostring pt := by
  cases pt <;> decide

theorem nul_notMem_rwstrings (readable writable : Bool) : 0 ∉ rwstrings readable writable := by
  cases readable <;> cases writable <;> decide

theorem wellFormed_propertyvalueWrite {e : PropertyValue} {doc : Json}
    (hdt : ∀ value, 0 ∉ dt.printf value) (hc : CStrings e.strings)
    (h : propertyvalueWrite dt e = .ok doc) : WellFormed P (levels + 2) doc := by
  simp only [PropertyValue.strings, cstrings_cons] at hc
  obtain ⟨hmin, hmax, hdefault, hlsb, hassertion, hprecision, hmedia, -⟩ := hc
  have obj : MembersOk P (levels + 1) [] := membersOk_nil
  have obj := obj.setString (lit "type") (by decide) (nul_notMem_propertytype e.type)
  have obj := obj.setString (lit "readWrite") (by decide) (nul_notMem_rwstrings e.readable e.writable)
  have obj := obj.setString (lit "minimum") (by decide) hmin
  have obj := obj.setString (lit "maximum") (by decide) hmax
  have obj := obj.setString (lit "defaultValue") (by decide) hdefault
  have obj := obj.setString (lit "lsb") (by decide) hlsb
  obtain ⟨_, hmask, h⟩ := Checked.bind_eq_ok.mp h
  obtain ⟨_, hshift, h⟩ := Checked.bind_eq_ok.mp h
  obtain ⟨_, hscale, h⟩ := Checked.bind_eq_ok.mp h
  obtain ⟨_, hoffset, h⟩ := Checked.bind_eq_ok.mp h
  obtain ⟨_, hbase, h⟩ := Checked.bind_eq_ok.mp h
  cases h
  have obj := obj.setArg hdt (by decide) hmask
  have obj := obj.setArg hdt (by decide) hshift
  have obj := obj.setArg hdt (by decide) hscale
  have obj := obj.setArg hdt (by decide) hoffset
  have obj := obj.setArg hdt (by decide) hbase
  have obj := obj.setString (lit "assertion") (by decide) hassertion
  have obj := obj.setString (lit "precision") (by decide) hprecision
  have hencoding : 0 ∉ (if e.floatAsBinary then lit "base64" else lit "eNotation") := by
    cases e.floatAsBinary <;> decide
  have obj := obj.setString (lit "floatEncoding") (by decide) hencoding
  exact (obj.setString (lit "mediaType") (by decide) hmedia).object

theorem wellFormed_unitsWrite {e : Units} (hc : CStrings [e.type, e.readwrite, e.defaultvalue]) :
    WellFormed P (levels + 2) (unitsWrite e) := by
  simp only [cstrings_cons] at hc
  obtain ⟨htype, hreadwrite, hdefault, -⟩ := hc
  have obj : MembersOk P (levels + 1) [] := membersOk_nil
  have obj := obj.setString (lit "type") (by decide) htype
  have obj := obj.setString (lit "readWrite") (by decide) hreadwrite
  exact (obj.setString (lit "defaultValue") (by decide) hdefault).object

theorem wellFormed_deviceresourceWrite {e : DeviceResource} {doc : Json}
    (hdt : ∀ value, 0 ∉ dt.printf value) (hc : CStrings e.strings)
    (h : deviceresourceWrite dt e = .ok doc) : WellFormed P (levels + 4) doc := by
  simp only [DeviceResource.strings, List.cons_append, List.nil_append, cstrings_cons,
    cstrings_append] at hc
  obtain ⟨hname, hdescription, htag, htype, hreadwrite, hdefault, hvalue, hattributes⟩ := hc
  obtain ⟨properties, hproperties, h⟩ := Checked.bind_eq_ok.mp h
  obtain ⟨value, hwrite, hproperties⟩ := Checked.bind_eq_ok.mp hproperties
  cases hproperties
  cases h
  have hunits : WellFormed P (levels + 2) (unitsWrite e.properties.units) :=
    wellFormed_unitsWrite (by
      simp only [cstrings_cons]
      exact ⟨htype, hreadwrite, hdefault, List.forall_mem_nil _⟩)
  have properties : MembersOk P (levels + 2) [] := membersOk_nil
  have properties := properties.setValue (lit "value") (by decide)
    (wellFormed_propertyvalueWrite hdt hvalue hwrite)
  have properties := (properties.setValue (lit "units") (by decide) hunits).object
  have obj : MembersOk P (levels + 3) [] := membersOk_nil
  have obj := obj.setString (lit "name") (by decide) hname
  have obj := obj.setString (lit "description") (by decide) hdescription
  have obj := obj.setString (lit "tag") (by decide) htag
  have obj := obj.setValue (lit "properties") (by decide) properties
  exact (obj.setValue (lit "attributes") (by decide) (wellFormed_nvpairsWrite hattributes)).object

theorem wellFormed_resourceoperationWrite {e : ResourceOperation} (hc : CStrings e.strings) :
    WellFormed P (levels + 3) (resourceoperationWrite e) := by
  simp only [ResourceOperation.strings, List.cons_append, List.nil_append, cstrings_cons,
    cstrings_append] at hc
  obtain ⟨hindex, hoperation, hobject, hproperty, hparameter, hresource, hsecondary, hmappings⟩ := hc
  have obj : MembersOk P (levels + 2) [] := membersOk_nil
  have obj := obj.setString (lit "index") (by decide) hindex
  have obj := obj.setString (lit "operation") (by decide) hoperation
  have obj := obj.setString (lit "object") (by decide) hobject
  have obj := obj.setString (lit "property") (by decide) hproperty
  have obj := obj.setString (lit "parameter") (by decide) hparameter
  have obj := obj.setString (lit "resource") (by decide) hresource
  have obj := obj.setValue (lit "secondary") (by decide) (wellFormed_stringsToArray hsecondary)
  exact (obj.setValue (lit "mappings") (by decide) (wellFormed_nvpairsWrite hmappings)).object

theorem wellFormed_devicecommandWrite {e : DeviceCommand} (hc : CStrings e.strings) :
    WellFormed P (levels + 5) (devicecommandWrite e) := by
  rw [DeviceCommand.strings, cstrings_cons, cstrings_flatMap] at hc
  have harray : WellFormed P (levels + 4)
      (.array (e.set.map resourceoperationWrite ++ e.get.map resourceoperationWrite)) := by
    intro v hv
    rw [← List.map_append] at hv
    obtain ⟨op, hop, rfl⟩ := List.mem_map.mp hv
    exact wellFormed_resourceoperationWrite (hc.2 op hop)
  have hempty : WellFormed P (levels + 4) (.array []) := List.forall_mem_nil _
  have obj : MembersOk P (levels + 4) [] := membersOk_nil
  have obj := obj.setString (lit "name") (by decide) hc.1
  have obj := obj.setValue (lit "set") (by decide) harray
  exact (obj.setValue (lit "get") (by decide) hempty).object

theorem wellFormed_deviceprofileWrite {e : DeviceProfile} {create : Bool} {doc : Json}
    (hdt : ∀ value, 0 ∉ dt.printf value) (hc : CStrings e.strings)
    (hn : ∀ n ∈ e.counts, P (doubleOfUint64 n)) (h : deviceprofileWrite dt e create = .ok doc) :
    WellFormed P (levels + 7) doc := by
  simp only [DeviceProfile.strings, List.cons_append, List.nil_append, cstrings_cons,
    cstrings_append, cstrings_flatMap] at hc
  obtain ⟨hid, hname, hdescription, hmanufacturer, hmodel, hlabels, hresources, hcommands⟩ := hc
  simp only [DeviceProfile.counts, List.forall_mem_cons] at hn
  obtain ⟨hcreated, hmodified, horigin, -⟩ := hn
  obtain ⟨array, harray, h⟩ := Checked.bind_eq_ok.mp h
  cases h
  have hitems : WellFormed P (levels + 6) (.array array) := by
    have hwritten := Checked.mapM_returns_iff.mp ⟨array, harray⟩
    have hall : ∀ r ∈ e.deviceResources, ∃ v, deviceresourceWrite dt r = .ok v ∧
        WellFormed P (levels + 1 + 4) v := by
      intro r hr
      obtain ⟨v, hv⟩ := hwritten r hr
      exact ⟨v, hv, wellFormed_deviceresourceWrite hdt (hresources r hr) hv⟩
    obtain ⟨array', harray', hwell⟩ := Checked.mapM_all_iff.mpr hall
    cases harray.symm.trans harray'
    exact hwell
  have hitems₂ : WellFormed P (levels + 6) (.array (e.deviceCommands.map devicecommandWrite)) := by
    intro v hv
    obtain ⟨c, hmem, rfl⟩ := List.mem_map.mp hv
    exact wellFormed_devicecommandWrite (hcommands c hmem)
  have obj : MembersOk P (levels + 6) _ := membersOk_own create hid hcreated hmodified
  have obj := obj.setString (lit "name") (by decide) hname
  have obj := obj.setString (lit "description") (by decide) hdescription
  have obj := obj.setNumber (lit "origin") (by decide) horigin
  have obj := obj.setString (lit "manufacturer") (by decide) hmanufacturer
  have obj := obj.setString (lit "model") (by decide) hmodel
  have obj := obj.setValue (lit "labels") (by decide) (wellFormed_stringsToArray hlabels)
  have obj := obj.setValue (lit "deviceResources") (by decide) hitems
  exact (obj.setValue (lit "deviceCommands") (by decide) hitems₂).object

end Profiles

-- ---------------------------------------------------------------------------
-- Services, devices and value descriptors
-- ---------------------------------------------------------------------------

section Records

variable {P : Rat → Prop} {levels : Nat} {dt : DoubleText} {create : Bool}

/-- The numbers of a service and of its addressable. -/
def DeviceService.allCounts (e : DeviceService) : List UInt64 :=
  e.counts ++ e.addressable.toList.flatMap Addressable.counts

/-- The numbers in the document of a device; a new one starts with zeros. -/
def Device.allCounts (e : Device) : List UInt64 :=
  [0, e.created, e.lastConnected, e.lastReported, e.modified, e.origin] ++
    (e.service.toList.flatMap DeviceService.allCounts ++
      e.profile.toList.flatMap DeviceProfile.counts)

theorem wellFormed_addressableWrite {e : Addressable} (create : Bool) (hc : CStrings e.strings)
    (hn : ∀ n ∈ e.counts, P (doubleOfUint64 n)) :
    WellFormed P (levels + 2) (addressableWrite e create) := by
  simp only [Addressable.strings, cstrings_cons] at hc
  obtain ⟨haddress, hid, hmethod, hname, hpassword, hpath, hprotocol, hpublisher, htopic, huser,
    -⟩ := hc
  simp only [Addressable.counts, List.forall_mem_cons] at hn
  obtain ⟨hcreated, hmodified, horigin, hport, -⟩ := hn
  have obj : MembersOk P (levels + 1) _ := membersOk_own create hid hcreated hmodified
  have obj := obj.setString (lit "address") (by decide) haddress
  have obj := obj.setString (lit "method") (by decide) hmethod
  have obj := obj.setString (lit "name") (by decide) hname
  have obj := obj.setNumber (lit "origin") (by decide) horigin
  have obj := obj.setString (lit "password") (by decide) hpassword
  have obj := obj.setString (lit "path") (by decide) hpath
  have obj := obj.setNumber (lit "port") (by decide) hport
  have obj := obj.setString (lit "protocol") (by decide) hprotocol
  have obj := obj.setString (lit "publisher") (by decide) hpublisher
  have obj := obj.setString (lit "topic") (by decide) htopic
  exact (obj.setString (lit "user") (by decide) huser).object

theorem nul_notMem_adminstate (ad : AdminState) : 0 ∉ edgexAdminstateTostring ad := by
  cases ad <;> decide

theorem nul_notMem_operatingstate (op : OperatingState) : 0 ∉ edgexOperatingstateTostring op := by
  cases op <;> decide

theorem wellFormed_deviceserviceWrite {e : DeviceService} {doc : Json}
    (hc : CStrings e.allStrings)
    (hn : ∀ n ∈ e.allCounts, P (doubleOfUint64 n)) (h : deviceserviceWrite e create = .ok doc) :
    WellFormed P (levels + 3) doc := by
  rw [deviceserviceWrite] at h
  cases haddr : e.addressable with
  | none =>
    rw [haddr] at h
    cases h
  | some a =>
    rw [haddr] at h
    cases h
    simp only [DeviceService.allStrings, DeviceService.strings, haddr, Option.toList_some,
      List.flatMap_singleton, List.cons_append, List.nil_append, cstrings_cons,
      cstrings_append] at hc
    obtain ⟨hdescription, hid, hname, hlabels, haddressable⟩ := hc
    simp only [DeviceService.allCounts, DeviceService.counts, haddr, Option.toList_some,
      List.flatMap_singleton, List.cons_append, List.nil_append, List.forall_mem_cons] at hn
    obtain ⟨hcreated, hconnected, hreported, hmodified, horigin, hcounts⟩ := hn
    have obj : MembersOk P (levels + 2) _ := membersOk_own create hid hcreated hmodified
    have obj := obj.setValue (lit "addressable") (by decide)
      (wellFormed_addressableWrite false haddressable hcounts)
    have obj := obj.setString (lit "adminState") (by decide) (nul_notMem_adminstate e.adminState)
    have obj := obj.setString (lit "description") (by decide) hdescription
    have obj := obj.setValue (lit "labels") (by decide) (wellFormed_stringsToArray hlabels)
    have obj := obj.setNumber (lit "lastConnected") (by decide) hconnected
    have obj := obj.setNumber (lit "lastReported") (by decide) hreported
    have obj := obj.setString (lit "name") (by decide) hname
    have obj := obj.setString (lit "operatingState") (by decide)
      (nul_notMem_operatingstate e.operatingState)
    exact (obj.setNumber (lit "origin") (by decide) horigin).object

theorem wellFormed_autoeventsWrite {e : List AutoEvent}
    (hc : ∀ ae ∈ e, CStrings [ae.resource, ae.frequency]) :
    WellFormed P (levels + 3) (autoeventsWrite e) := by
  intro v hv
  obtain ⟨ae, hae, rfl⟩ := List.mem_map.mp hv
  have hstrings := hc ae hae
  simp only [cstrings_cons] at hstrings
  obtain ⟨hresource, hfrequency, -⟩ := hstrings
  have pobj : MembersOk P (levels + 1) [] := membersOk_nil
  have pobj := pobj.setString (lit "resource") (by decide) hresource
  have pobj := pobj.setString (lit "frequency") (by decide) hfrequency
  exact (pobj.setBoolean (lit "onChange") (by decide)).object

theorem wellFormed_protocolsWrite {e : List Protocol}
    (hc : ∀ p ∈ e, CStrings (p.name :: pairTexts p.properties)) :
    WellFormed P (levels + 3) (protocolsWrite e) := by
  have hfold : ∀ obj : Members, MembersOk P (levels + 2) obj →
      MembersOk P (levels + 2) (e.foldl (fun obj prot =>
        jsonObjectSetValue obj prot.name (some (nvpairsWrite prot.properties))) obj) := by
    induction e with
    | nil => exact fun _ hobj => hobj
    | cons p e ih =>
      rw [List.forall_mem_cons, cstrings_cons] at hc
      obtain ⟨⟨hname, hproperties⟩, hrest⟩ := hc
      exact fun obj hobj =>
        ih hrest _ (hobj.setValue p.name hname (wellFormed_nvpairsWrite hproperties))
  exact (hfold [] membersOk_nil).object

theorem wellFormed_writeName {name : Text} (hname : 0 ∉ name) :
    WellFormed P (levels + 2) (writeName name) := by
  have obj : MembersOk P (levels + 1) [] := membersOk_nil
  exact (obj.setString (lit "name") (by decide) hname).object

theorem wellFormed_valuedescriptorWrite {e : ValueDescriptor} (hc : CStrings e.strings)
    (hn : ∀ n ∈ e.counts, P (doubleOfUint64 n)) :
    WellFormed P (levels + 3) (valuedescriptorWrite e) := by
  simp only [ValueDescriptor.strings, List.cons_append, List.nil_append, cstrings_cons] at hc
  obtain ⟨hdefault, hdescription, hformatting, hid, hmax, hmin, hname, htype, huom, hmedia,
    hencoding, hlabels⟩ := hc
  simp only [ValueDescriptor.counts, List.forall_mem_cons] at hn
  obtain ⟨hcreated, hmodified, horigin, -⟩ := hn
  have obj : MembersOk P (levels + 2) [] := membersOk_nil
  have obj := obj.setNumber (lit "created") (by decide) hcreated
  have obj := obj.setString (lit "defaultValue") (by decide) hdefault
  have obj := obj.setString (lit "description") (by decide) hdescription
  have obj := obj.setString (lit "formatting") (by decide) hformatting
  have obj := obj.setString (lit "id") (by decide) hid
  have obj := obj.setValue (lit "labels") (by decide) (wellFormed_stringsToArray hlabels)
  have obj := obj.setString (lit "max") (by decide) hmax
  have obj := obj.setString (lit "min") (by decide) hmin
  have obj := obj.setNumber (lit "modified") (by decide) hmodified
  have obj := obj.setString (lit "name") (by decide) hname
  have obj := obj.setNumber (lit "origin") (by decide) horigin
  have obj := obj.setString (lit "type") (by decide) htype
  have obj := obj.setString (lit "uomLabel") (by decide) huom
  have obj := obj.setString (lit "floatEncoding") (by decide) hencoding
  exact (obj.setString (lit "mediaType") (by decide) hmedia).object

/-- The members that a device has in both cases. -/
theorem MembersOk.deviceRest {e : Device} {obj : Members} (hobj : MembersOk P (levels + 7) obj)
    (hc : CStrings e.strings) (hn : ∀ n ∈ e.allCounts, P (doubleOfUint64 n)) :
    MembersOk P (levels + 7)
      (let obj := jsonObjectSetValue obj (lit "protocols") (some (protocolsWrite e.protocols))
      let obj := jsonObjectSetValue obj (lit "autoevents") (some (autoeventsWrite e.autos))
      let obj := jsonObjectSetString obj (lit "adminState") (edgexAdminstateTostring e.adminState)
      let obj := jsonObjectSetString obj (lit "name") e.name
      let obj := jsonObjectSetString obj (lit "description") e.description
      let obj := jsonObjectSetValue obj (lit "labels") (some (stringsToArray e.labels))
      let obj := jsonObjectSetString obj (lit "operatingState")
        (edgexOperatingstateTostring e.operatingState)
      jsonObjectSetNumber obj (lit "origin") e.origin) := by
  simp only [Device.strings, cstrings_append, cstrings_flatMap] at hc
  obtain ⟨hown, hlabels, hprotocols, hautos, -⟩ := hc
  simp only [cstrings_cons] at hown
  obtain ⟨hdescription, -, hname, -⟩ := hown
  have horigin : P (doubleOfUint64 e.origin) := hn _ (by simp [Device.allCounts])
  have obj := hobj.setValue (lit "protocols") (by decide) (wellFormed_protocolsWrite hprotocols)
  have obj := obj.setValue (lit "autoevents") (by decide) (wellFormed_autoeventsWrite hautos)
  have obj := obj.setString (lit "adminState") (by decide) (nul_notMem_adminstate e.adminState)
  have obj := obj.setString (lit "name") (by decide) hname
  have obj := obj.setString (lit "description") (by decide) hdescription
  have obj := obj.setValue (lit "labels") (by decide) (wellFormed_stringsToArray hlabels)
  have obj := obj.setString (lit "operatingState") (by decide)
    (nul_notMem_operatingstate e.operatingState)
  exact obj.setNumber (lit "origin") (by decide) horigin

theorem wellFormed_deviceWrite {e : Device} {doc : Json} (hdt : ∀ value, 0 ∉ dt.printf value)
    (hc : CStrings e.strings) (hn : ∀ n ∈ e.allCounts, P (doubleOfUint64 n))
    (h : deviceWrite dt e create = .ok doc) : WellFormed P (levels + 8) doc := by
  have hstrings := hc
  have hcounts := hn
  rw [deviceWrite] at h
  cases hprofile : e.profile with
  | none =>
    rw [hprofile] at h
    cases h
  | some p =>
    cases hservice : e.service with
    | none =>
      rw [hprofile, hservice] at h
      cases h
    | some s =>
      rw [hprofile, hservice] at h
      dsimp only at h
      simp only [Device.strings, hprofile, hservice, Option.toList_some, List.flatMap_singleton,
        List.cons_append, List.nil_append, cstrings_cons, cstrings_append] at hstrings
      obtain ⟨-, hid, -, -, -, -, hserviceText, hprofileText⟩ := hstrings
      simp only [Device.allCounts, hprofile, hservice, Option.toList_some, List.flatMap_singleton,
        List.cons_append, List.nil_append, List.forall_mem_cons, List.forall_mem_append] at hcounts
      obtain ⟨hzero, hcreated, hconnected, hreported, hmodified, -, hserviceCounts,
        hprofileCounts⟩ := hcounts
      have obj : MembersOk P (levels + 7) [] := membersOk_nil
      split at h
      · cases h
        have hprofileName : 0 ∉ p.name := by
          rw [DeviceProfile.strings] at hprofileText
          exact hprofileText _ (by simp)
        have hserviceName : 0 ∉ s.name := by
          rw [DeviceService.allStrings, DeviceService.strings] at hserviceText
          exact hserviceText _ (by simp)
        have obj := obj.setValue (lit "profile") (by decide) (wellFormed_writeName hprofileName)
        have obj := obj.setValue (lit "service") (by decide) (wellFormed_writeName hserviceName)
        have obj := obj.setNumber (lit "lastConnected") (by decide) hzero
        have obj := obj.setNumber (lit "lastReported") (by decide) hzero
        exact (obj.deviceRest hc hn).object
      · obtain ⟨profile, hp, h⟩ := Checked.bind_eq_ok.mp h
        obtain ⟨service, hs, h⟩ := Checked.bind_eq_ok.mp h
        cases h
        have obj := obj.setString (lit "adminState") (by decide)
          (nul_notMem_adminstate e.adminState)
        have obj := obj.setString (lit "operatingState") (by decide)
          (nul_notMem_operatingstate e.operatingState)
        have obj := obj.setString (lit "id") (by decide) hid
        have obj := obj.setNumber (lit "created") (by decide) hcreated
        have obj := obj.setNumber (lit "modified") (by decide) hmodified
        have obj := obj.setValue (lit "profile") (by decide)
          (wellFormed_deviceprofileWrite hdt hprofileText hprofileCounts hp)
        have hserviceDoc : WellFormed P (levels + 4 + 3) service :=
          wellFormed_deviceserviceWrite hserviceText hserviceCounts hs
        have obj := obj.setValue (lit "service") (by decide) hserviceDoc
        have obj := obj.setNumber (lit "lastConnected") (by decide) hconnected
        have obj := obj.setNumber (lit "lastReported") (by decide) hreported
        exact (obj.deviceRest hc hn).object

end Records

-- ---------------------------------------------------------------------------
-- There and back through parson.c
-- ---------------------------------------------------------------------------

section Results

variable {d : Doubles}

/-- A document that C can hold is parsed back. -/
theorem parsesBack_of_wellFormed {v : Json} (h : WellFormed d.Exact (MAX_NESTING + 1) v) :
    d.parson.ParsesBack v := jsonParseString_jsonText h false

/-- Counts that a double holds are printed exactly. -/
theorem exact_counts (hd : ∀ n < 2 ^ 53, d.Exact (((n : Nat) : Int) : Rat)) {ns : List UInt64}
    (hns : ∀ n ∈ ns, n.toNat < 2 ^ 53) : ∀ n ∈ ns, d.Exact (doubleOfUint64 n) := by
  intro n hn
  rw [doubleOfUint64, roundDouble_of_lt (hns n hn)]
  exact hd _ (hns n hn)

/-- Whatever a device, its service and its profile hold, what `device_write` makes of them is read from
the text as it was written, for a new device and for a known one, as far as the doubles that its
counts are stored in print what they read. -/
theorem device_document_parsesBack (d : Doubles) (dt : DoubleText) (e : Device) (create : Bool)
    (doc : Json) (hdt : ∀ value, 0 ∉ dt.printf value) (hc : CStrings e.strings)
    (hn : ∀ n ∈ e.allCounts, d.Exact (doubleOfUint64 n)) (h : deviceWrite dt e create = .ok doc) :
    ∀ pretty, jsonParseString d (jsonText d pretty doc 0) = some doc := by
  have hwell : WellFormed d.Exact (2041 + 8) doc := wellFormed_deviceWrite hdt hc hn h
  exact jsonParseString_jsonText hwell

theorem wholeNumbers_counts : ∀ n < 2 ^ 53, wholeNumbers.Exact (((n : Nat) : Int) : Rat) :=
  fun n hn => wholeNumbers_exact (x := n) (by omega)

theorem lampDevice_allCounts (autos : List AutoEvent) :
    ∀ n ∈ (lampDevice autos).allCounts, n.toNat < 2 ^ 53 := by
  simp [Device.allCounts, lampDevice, DeviceService.allCounts, DeviceService.counts, zigbeeService,
    zigbeeAddressable, Addressable.counts, lampProfile, DeviceProfile.counts]

/-- A new lamp with an event every ten seconds. -/
theorem lampDevice_document :
    ∃ doc, deviceWrite .empty (lampDevice [⟨lit "Switch", lit "10s", true⟩]) true = .ok doc ∧
      ∀ pretty, jsonParseString wholeNumbers (jsonText wholeNumbers pretty doc 0) = some doc := by
  obtain ⟨doc, hdoc⟩ : ∃ doc,
      deviceWrite .empty (lampDevice [⟨lit "Switch", lit "10s", true⟩]) true = .ok doc := ⟨_, rfl⟩
  exact ⟨doc, hdoc, device_document_parsesBack wholeNumbers .empty _ true doc
    (fun _ => List.not_mem_nil) (by decide)
    (exact_counts wholeNumbers_counts (lampDevice_allCounts _)) hdoc⟩

/-- Services, addressables and value descriptors come back from their texts as they were sent: as
they are, or without their id and their times when they are new. -/
theorem records_survive_text (d : Doubles)
    (hd : ∀ n < 2 ^ 53, d.Exact (((n : Nat) : Int) : Rat)) :
    (∀ (e : DeviceService) (a : Addressable) (create : Bool), e.addressable = some a →
      AllUtf8 e.allStrings → CStrings e.allStrings → (∀ n ∈ e.allCounts, n.toNat < 2 ^ 53) →
        ∃ text, edgexDeviceserviceWrite d.parson e create = .ok text ∧
          edgexDeviceserviceRead d.parson text = some (e.asSent create)) ∧
    (∀ (a : Addressable) (create : Bool), AllUtf8 a.strings → CStrings a.strings →
      (∀ n ∈ a.counts, n.toNat < 2 ^ 53) →
        edgexAddressableRead d.parson (edgexAddressableWrite d.parson a create) =
          some (a.asSent create)) ∧
    ∀ v : ValueDescriptor, AllUtf8 v.strings → CStrings v.strings →
      (∀ n ∈ v.counts, n.toNat < 2 ^ 53) →
        edgexValuedescriptorRead d.parson (edgexValuedescriptorWrite d.parson v) = some v := by
  refine ⟨?_, ?_, ?_⟩
  · intro e a create haddr hutf hc hn
    have hcounts : AllExact (e.counts ++ a.counts) := allExact_of_lt (by
      simpa [DeviceService.allCounts, haddr] using hn)
    obtain ⟨doc, hwrite, hread⟩ := deviceserviceRead_asSent create haddr
      (by simpa [DeviceService.allStrings, haddr] using hutf) hcounts
    have hwell : WellFormed d.Exact (2046 + 3) (.object doc) :=
      wellFormed_deviceserviceWrite hc (exact_counts hd hn) hwrite
    refine ⟨_, by rw [edgexDeviceserviceWrite, hwrite]; rfl, ?_⟩
    rw [edgexDeviceserviceRead, parsesBack_of_wellFormed hwell, jsonValueGetObject_object,
      Option.map_some, hread]
  · intro a create hutf hc hn
    have hwell : WellFormed d.Exact (2047 + 2) (addressableWrite a create) :=
      wellFormed_addressableWrite create hc (exact_counts hd hn)
    have hread := addressableRead_asSent create hutf (allExact_of_lt hn)
    rw [edgexAddressableRead, edgexAddressableWrite, parsesBack_of_wellFormed hwell]
    exact congrArg some hread
  · intro v hutf hc hn
    have hwell : WellFormed d.Exact (2046 + 3) (valuedescriptorWrite v) :=
      wellFormed_valuedescriptorWrite hc (exact_counts hd hn)
    exact valuedescriptor_roundTrip hutf (allExact_of_lt hn) (parsesBack_of_wellFormed hwell)

/-- The service as it is registered, its addressable and the value descriptor come back. -/
theorem zigbeeService_survives_text :
    (∃ text, edgexDeviceserviceWrite wholeNumbers.parson zigbeeService true = .ok text ∧
      edgexDeviceserviceRead wholeNumbers.parson text = some (zigbeeService.asSent true)) ∧
    edgexAddressableRead wholeNumbers.parson
        (edgexAddressableWrite wholeNumbers.parson zigbeeAddressable false) =
      some zigbeeAddressable ∧
    edgexValuedescriptorRead wholeNumbers.parson
        (edgexValuedescriptorWrite wholeNumbers.parson switchDescriptor) =
      some switchDescriptor := by
  have hrecords := records_survive_text wholeNumbers wholeNumbers_counts
  have hservice : ∀ n ∈ zigbeeService.allCounts, n.toNat < 2 ^ 53 := by
    simp [DeviceService.allCounts, DeviceService.counts, Addressable.counts, zigbeeService,
      zigbeeAddressable]
  have haddressable : ∀ n ∈ zigbeeAddressable.counts, n.toNat < 2 ^ 53 := by
    simp [Addressable.counts, zigbeeAddressable]
  have hdescriptor : ∀ n ∈ switchDescriptor.counts, n.toNat < 2 ^ 53 := by
    simp [ValueDescriptor.counts, switchDescriptor]
  exact ⟨hrecords.1 _ zigbeeAddressable true rfl (by decide) (by decide) hservice,
    hrecords.2.1 _ false (by decide) (by decide) haddressable,
    hrecords.2.2 _ (by decide) (by decide) hdescriptor⟩

/-- What is left of a device after its text was written and read: its automatic events are lost, its
protocols are in the opposite order, and its profile is missing when a transform argument belongs to
a resource that is no integer. -/
theorem device_survives_text (d : Doubles) (dt : DoubleText) (e : Device) (p : DeviceProfile)
    (s : DeviceService) (a : Addressable) (hd : ∀ n < 2 ^ 53, d.Exact (((n : Nat) : Int) : Rat))
    (hdt : ∀ value, 0 ∉ dt.printf value) (hprofile : e.profile = some p)
    (hservice : e.service = some s) (haddr : s.addressable = some a)
    (hfloat : ∀ r ∈ p.deviceResources, r.properties.value.NoFloatArgs)
    (hutf : AllUtf8 e.strings) (hc : CStrings e.strings)
    (hn : ∀ n ∈ e.allCounts, n.toNat < 2 ^ 53) (hnames : (e.protocols.map Protocol.name).Nodup) :
    ∃ text, edgexDeviceWrite d.parson dt e false = .ok text ∧
      edgexDeviceRead d.parson dt text =
        .ok (some { e with
          protocols := (e.protocols.map Protocol.echo).reverse
          autos := []
          profile := if ∀ r ∈ p.deviceResources, r.properties.value.IntegerArgs then some p.echo
            else none }) := by
  have hall := hutf
  simp only [Device.strings, hprofile, hservice, haddr, DeviceService.allStrings,
    Option.toList_some, List.flatMap_singleton, allUtf8_append] at hall
  obtain ⟨-, -, -, -, ⟨hserviceUtf, haddrUtf⟩, hprofileUtf⟩ := hall
  have hexact := allExact_of_lt hn
  simp only [Device.allCounts, DeviceService.allCounts, hprofile, hservice, haddr,
    Option.toList_some, List.flatMap_singleton] at hexact
  have hown : AllExact [e.created, e.lastConnected, e.lastReported, e.modified, e.origin] :=
    fun n hmem => hexact n (List.mem_append_left _ (List.mem_cons_of_mem _ hmem))
  have hserviceExact : AllExact s.counts := fun n hmem =>
    hexact n (List.mem_append_right _ (List.mem_append_left _ (List.mem_append_left _ hmem)))
  have haddrExact : AllExact a.counts := fun n hmem =>
    hexact n (List.mem_append_right _ (List.mem_append_left _ (List.mem_append_right _ hmem)))
  have hprofileExact : AllExact p.counts := fun n hmem =>
    hexact n (List.mem_append_right _ (List.mem_append_right _ hmem))
  obtain ⟨sm, hswrite, hsread⟩ :=
    deviceserviceRead_deviceserviceWrite haddr hserviceUtf hserviceExact
  have hpwrite := deviceprofileWrite_eq fun r hr => (hfloat r hr).fits dt
  have hpread := deviceprofileRead_deviceprofileMembers dt hprofileUtf hprofileExact hfloat
  have hwrite := deviceWrite_eq hprofile hservice hpwrite hswrite
  have hwell : WellFormed d.Exact (2041 + 8) _ :=
    wellFormed_deviceWrite hdt hc (exact_counts hd hn) hwrite
  have hback := parsesBack_of_wellFormed hwell
  refine ⟨_, by rw [edgexDeviceWrite, hwrite]; rfl, ?_⟩
  rw [edgexDeviceRead, hback, jsonValueGetObject_object]
  dsimp only
  rw [deviceRead_deviceMembers dt hutf hown hnames hpread, hsread,
    addressableRead_addressableWrite haddrUtf haddrExact, ← haddr, ← hservice]
  rfl

/-- The lamp's event is lost, its profile is kept. -/
theorem lampDevice_survives_text :
    ∃ text, edgexDeviceWrite wholeNumbers.parson .empty
        (lampDevice [⟨lit "Switch", lit "10s", true⟩]) false = .ok text ∧
      edgexDeviceRead wholeNumbers.parson .empty text =
        .ok (some { lampDevice [] with
          protocols := ((lampDevice []).protocols.map Protocol.echo).reverse
          profile := if ∀ r ∈ (lampProfile [lampOperation] [lampOperation]).deviceResources,
              r.properties.value.IntegerArgs then
            some (lampProfile [lampOperation] [lampOperation]).echo else none }) :=
  device_survives_text wholeNumbers .empty _ (lampProfile [lampOperation] [lampOperation])
    zigbeeService zigbeeAddressable wholeNumbers_counts (fun _ => List.not_mem_nil) rfl rfl rfl
    (lampProfile_noFloatArgs _ _) (by decide) (by decide) (lampDevice_allCounts _) (by decide)

end Results

end Zigbee
