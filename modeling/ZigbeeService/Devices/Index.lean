-- SUMMARY: The two indexes of the device map agree, as long as no two devices of one name are in it when one of them goes.
import ZigbeeService.Lib.Machine
import ZigbeeService.Devices.Effects

/-!
# The indexes of the device map

`devices` leads from ids to devices, `name_to_id` from names to ids. Both are changed together, but
a removal takes out the entry of a name whichever device it stands for, and populating the map may
put a device over another with its id.
-/

namespace Zigbee

open CLib

namespace Devmap

/-! ## Runs -/

/-- A call of a run: one that returns. -/
def callStep (map : Devmap) (c : Call) : Option Devmap := (map.call c).toOption

theorem callStep_eq_some {map map' : Devmap} {c : Call} :
    map.callStep c = some map' ↔ map.call c = .ok map' :=
  Checked.toOption_eq_some

/-- The device at `a` is in the map. -/
def Holds (map : Devmap) (a : ObjAddr) (d : DeviceObject) : Prop :=
  ∃ id, map.devices.get id = some a ∧ map.objects.find? a = some d

/-- A name leads to a device exactly when one in the map has it, and then to such a device; every id
that is stored under a name is in the map. -/
structure IndexesAgree (map : Devmap) : Prop where
  byname : ∀ n, ∃ r map', map.deviceByname n = .ok (r, map') ∧
    (r ≠ none ↔ ∃ a d, map.Holds a d ∧ d.name = n) ∧
    ∀ a, r = some a → ∃ d, map.Holds a d ∧ d.name = n
  ids : ∀ n a, map.nameToId.get n = some a →
    ∃ d, map.objects.find? a = some d ∧ map.devices.get d.id ≠ none

/-! ## The condition -/

/-- No other device in the map has the name of the one at `a`. -/
def SoleOfItsName (map : Devmap) (a : ObjAddr) : Prop :=
  ∀ d, map.objects.find? a = some d → ∀ b e, map.Holds b e → e.name = d.name → b = a

/-- The device is not put over one with its id that a name leads to. -/
def Displaces (map : Devmap) (d : Device) : Prop :=
  map.nameToId.get d.name = none ∧ ∃ a old, map.devices.get d.id = some a ∧
    map.objects.find? a = some old ∧ map.nameToId.get old.name = some a

/-- No device of the list is put over one with its id that a name leads to. -/
def PopulateKeeps (map : Devmap) (devs : List Device) : Prop :=
  Machine.Guarded (fun map d => (map.populateDevice d).toOption)
    (fun map d => ¬ map.Displaces d) map devs

/-- When the indexes agree after a call. -/
def KeepsIndexes (map : Devmap) : Call → Prop
  | .populate devs => map.PopulateKeeps devs
  | .replace dev => ∀ a, map.devices.get dev.id = some a →
      (∃ d, map.objects.find? a = some d ∧ d.name = dev.name) ∨ map.SoleOfItsName a
  | .removeByname name => ∀ a, map.findByname name = .ok (some a) → map.SoleOfItsName a
  | .removeByid id => ∀ a, map.devices.get id = some a → map.SoleOfItsName a

/-! ## The invariant -/

/-- The names lead to devices of the map that have them; those outside `lost` are all there. -/
structure Indexed (map : Devmap) (lost : Text → Prop) : Prop where
  device : ∀ {id a}, map.devices.get id = some a →
    ∃ d, map.objects.find? a = some d ∧ d.id = id ∧ d.refs = 1
  name : ∀ {n a}, map.nameToId.get n = some a →
    ∃ d, map.objects.find? a = some d ∧ d.name = n ∧ map.devices.get d.id = some a
  indexed : ∀ {a d}, map.Holds a d → ¬ lost d.name → map.nameToId.get d.name ≠ none

/-- No name is lost. -/
abbrev WellIndexed (map : Devmap) : Prop := map.Indexed fun _ => False

theorem wellIndexed_alloc : alloc.WellIndexed where
  device h := by cases h
  name h := by cases h
  indexed := by
    rintro a d ⟨id, hid, -⟩
    cases hid

section Steps

variable {map map' : Devmap} {lost : Text → Prop}

theorem Indexed.mono {lost' : Text → Prop} (h : map.Indexed lost) (hlost : ∀ n, lost n → lost' n) :
    map.Indexed lost' where
  device := h.device
  name := h.name
  indexed hd hn := h.indexed hd fun hlost' => hn (hlost _ hlost')

/-- What is lost but nobody's name is not missed. -/
theorem Indexed.forget {n : Text} (h : map.Indexed fun m => lost m ∨ m = n)
    (hnone : ∀ a d, map.Holds a d → d.name ≠ n) : map.Indexed lost where
  device := h.device
  name := h.name
  indexed hd hn := h.indexed hd fun hor => hor.elim hn (hnone _ _ hd)

/-- A change of one object that keeps what the indexes are about. -/
theorem Indexed.write {a : ObjAddr} {d d' : DeviceObject} (h : map.Indexed lost)
    (hd : map.objects.find? a = some d) (hid : d'.id = d.id) (hname : d'.name = d.name)
    (hrefs : d'.refs = d.refs) : Indexed { map with objects := map.objects.write a d' } lost := by
  have hkept {b : ObjAddr} {e : DeviceObject} (he : map.objects.find? b = some e) :
      ∃ e', (map.objects.write a d').find? b = some e' ∧
        e'.name = e.name ∧ e'.id = e.id ∧ e'.refs = e.refs := by
    rw [Store.find?_write hd]
    split
    · next heq =>
      subst heq
      rw [hd] at he
      cases he
      exact ⟨d', rfl, hname, hid, hrefs⟩
    · exact ⟨e, he, rfl, rfl, rfl⟩
  refine ⟨?_, ?_, ?_⟩
  · intro id b hb
    obtain ⟨e, he, hid, hrefs⟩ := h.device hb
    obtain ⟨e', he', -, hid', hrefs'⟩ := hkept he
    exact ⟨e', he', hid'.trans hid, hrefs'.trans hrefs⟩
  · intro n b hb
    obtain ⟨e, he, hname, hdev⟩ := h.name hb
    obtain ⟨e', he', hname', hid', -⟩ := hkept he
    exact ⟨e', he', hname'.trans hname, by rw [hid']; exact hdev⟩
  · rintro b e' ⟨id, hb, he'⟩ hlost
    obtain ⟨e, he, -⟩ := h.device hb
    obtain ⟨e'', he'', hname', -⟩ := hkept he
    obtain rfl : e' = e'' := Option.some.inj (he'.symm.trans he'')
    rw [hname'] at hlost ⊢
    exact h.indexed ⟨id, hb, he⟩ hlost

/-- Adding a device under an id that is free, or whose device no name leads to. -/
theorem Indexed.addLocked {d : Device} (h : map.Indexed lost)
    (hid : ∀ a old, map.devices.get d.id = some a → map.objects.find? a = some old →
      map.nameToId.get old.name = some a → old.name = d.name)
    (hadd : map.addLocked d = .ok map') : map'.Indexed fun n => lost n ∧ n ≠ d.name := by
  obtain ⟨pp, hadded⟩ := addLocked_eq_ok hadd
  have hobject : map'.objects.find? map.objects.size =
      some { copiedInfo d with profile := pp, refs := 1 } := by
    rw [hadded.objects, Store.find?_alloc, if_pos rfl]
  have hold {a : ObjAddr} {e : DeviceObject} (he : map.objects.find? a = some e) :
      map'.objects.find? a = some e := by
    rw [hadded.objects]
    exact Store.find?_alloc_of_some he
  constructor
  · intro id a ha
    rw [hadded.devices, HashMap.get_set] at ha
    split at ha
    · next hnew =>
      cases ha
      exact ⟨_, hobject, hnew.symm, rfl⟩
    · obtain ⟨e, he, hrest⟩ := h.device ha
      exact ⟨e, hold he, hrest⟩
  · intro n a ha
    rw [hadded.nameToId, HashMap.get_set] at ha
    split at ha
    · next hnew =>
      cases ha
      refine ⟨_, hobject, hnew.symm, ?_⟩
      rw [hadded.devices, HashMap.get_set]
      exact if_pos rfl
    · next hne =>
      obtain ⟨e, he, hname, hdev⟩ := h.name ha
      refine ⟨e, hold he, hname, ?_⟩
      rw [hadded.devices, HashMap.get_set]
      split
      · -- the entry would now lead to a device that is no longer in the map
        next heq =>
        rw [heq] at hdev
        exact absurd (hname.symm.trans (hid a e hdev he (by rw [hname]; exact ha))) hne
      · exact hdev
  · rintro a e ⟨id, ha, he⟩ hlost
    rw [hadded.nameToId, HashMap.get_set]
    split
    · exact Option.some_ne_none _
    · next hne =>
      rw [hadded.devices, HashMap.get_set] at ha
      split at ha
      · cases ha
        rw [hobject] at he
        cases he
        exact absurd rfl hne
      · obtain ⟨e', he', -⟩ := h.device ha
        rw [hold he'] at he
        cases he
        exact h.indexed ⟨id, ha, he'⟩ fun hl => hlost ⟨hl, hne⟩

/-- What is left when a device of the map is taken out and freed. -/
theorem holds_removed {a : ObjAddr} {d : DeviceObject} (hid : map.devices.get d.id = some a)
    (b : ObjAddr) (e : DeviceObject) :
    Holds { map with
      nameToId := map.nameToId.remove d.name
      devices := map.devices.remove d.id
      objects := map.objects.free a } b e ↔ map.Holds b e ∧ b ≠ a := by
  constructor
  · rintro ⟨id, hb, he⟩
    rw [HashMap.get_remove] at hb
    rw [Store.find?_free] at he
    split at hb
    · cases hb
    · split at he
      · cases he
      · next hba => exact ⟨⟨id, hb, he⟩, hba⟩
  · rintro ⟨⟨id, hb, he⟩, hba⟩
    refine ⟨id, ?_, by rw [Store.find?_free, if_neg hba, he]⟩
    rw [HashMap.get_remove, if_neg, hb]
    rintro rfl
    rw [hid] at hb
    cases hb
    exact hba rfl

/-- Removing a device of the map: its name is lost. -/
theorem Indexed.removeLocked {a : ObjAddr} {d : DeviceObject} (h : map.Indexed lost)
    (ha : map.Holds a d) (hremove : map.removeLocked a = .ok map') :
    (map'.Indexed fun n => lost n ∨ n = d.name) ∧ map'.devices = map.devices.remove d.id ∧
      ∀ b e, map'.Holds b e ↔ map.Holds b e ∧ b ≠ a := by
  obtain ⟨id, hid, hobj⟩ := ha
  obtain ⟨d', hd', hrelease⟩ := removeLocked_eq_ok hremove
  obtain rfl : d = d' := Option.some.inj (hobj.symm.trans hd')
  obtain ⟨d'', hd'', hdrefs⟩ := h.device hid
  obtain rfl : d = d'' := Option.some.inj (hobj.symm.trans hd'')
  obtain ⟨rfl, hrefs⟩ := hdrefs
  -- nobody else holds the device, so releasing it frees it
  obtain ⟨d'', hd'', (⟨-, rfl⟩ | ⟨hrefs', -⟩)⟩ := release_eq_ok hrelease
  swap
  · obtain rfl : d = d'' := Option.some.inj (hobj.symm.trans hd'')
    exact absurd hrefs hrefs'
  have hother {b : ObjAddr} {e : DeviceObject} (he : map.objects.find? b = some e)
      (hne : e.id ≠ d.id) : (map.objects.free a).find? b = some e := by
    have hba : b ≠ a := by
      rintro rfl
      rw [hobj] at he
      cases he
      exact hne rfl
    rw [Store.find?_free, if_neg hba, he]
  have hholds := holds_removed hid
  refine ⟨⟨?_, ?_, ?_⟩, rfl, hholds⟩
  · intro id b hb
    rw [HashMap.get_remove] at hb
    split at hb
    · cases hb
    · next hne =>
      obtain ⟨e, he, rfl, hrefs'⟩ := h.device hb
      exact ⟨e, hother he hne, rfl, hrefs'⟩
  · intro n b hb
    rw [HashMap.get_remove] at hb
    split at hb
    · cases hb
    · next hne =>
      obtain ⟨e, he, rfl, hdev⟩ := h.name hb
      -- a name that stays leads to another device, and that one has another id
      have hid : e.id ≠ d.id := by
        intro heq
        rw [heq, hid] at hdev
        cases hdev
        rw [hobj] at he
        cases he
        exact hne rfl
      refine ⟨e, hother he hid, rfl, ?_⟩
      rw [HashMap.get_remove, if_neg hid, hdev]
  · intro b e he hlost
    rw [HashMap.get_remove, if_neg fun heq => hlost (.inr heq)]
    exact h.indexed ((hholds b e).mp he).1 fun hl => hlost (.inl hl)

/-- A removal loses nothing when no other device has the name. -/
theorem Indexed.removeLocked_sole {a : ObjAddr} {d : DeviceObject} (h : map.WellIndexed)
    (ha : map.Holds a d) (hsole : map.SoleOfItsName a) (hremove : map.removeLocked a = .ok map') :
    map'.WellIndexed := by
  obtain ⟨hindexed, -, hholds⟩ := h.removeLocked ha hremove
  refine hindexed.forget ?_
  intro b e he hname
  obtain ⟨hb, hba⟩ := (hholds b e).mp he
  obtain ⟨id, -, hobj⟩ := ha
  exact hba (hsole d hobj b e hb hname)

theorem Indexed.findByname (h : map.WellIndexed) {n : Text} {a : ObjAddr}
    (hfind : map.findByname n = .ok (some a)) : ∃ d, map.Holds a d ∧ d.name = n := by
  obtain ⟨b, d, hb, hd, ha⟩ := findByname_eq_some.mp hfind
  obtain ⟨d', hd', hname, hdev⟩ := h.name hb
  obtain rfl : d = d' := Option.some.inj (hd.symm.trans hd')
  obtain rfl : a = b := Option.some.inj (ha.symm.trans hdev)
  exact ⟨d, ⟨d.id, hdev, hd⟩, hname⟩

theorem Indexed.populateDevice {d : Device} (h : map.WellIndexed) (hkeep : ¬ map.Displaces d)
    (hpop : map.populateDevice d = .ok map') : map'.WellIndexed := by
  unfold Devmap.populateDevice at hpop
  split at hpop
  · cases hpop
    exact h
  · next hnone =>
    have hfree : map.nameToId.get d.name = none := by simpa using hnone
    refine (h.addLocked ?_ hpop).mono fun n hn => hn.1
    intro a old ha hold hname
    exact absurd ⟨hfree, a, old, ha, hold, hname⟩ hkeep

theorem Indexed.populateDevices {devs : List Device} (h : map.WellIndexed)
    (hkeep : map.PopulateKeeps devs) (hpop : map.populateDevices devs = .ok map') :
    map'.WellIndexed := by
  induction devs generalizing map with
  | nil =>
    cases hpop
    exact h
  | cons d devs ih =>
    obtain ⟨m, hm, hrest⟩ := Checked.bind_eq_ok.mp hpop
    exact ih (h.populateDevice hkeep.1 hm) (hkeep.2 m (Checked.toOption_eq_some.mpr hm)) hrest

theorem Indexed.replaceDevice {dev : Device} (h : map.WellIndexed)
    (hkeep : map.KeepsIndexes (.replace dev)) (hreplace : map.replaceDevice dev = .ok map') :
    map'.WellIndexed := by
  obtain ⟨⟨add, m⟩, hold, hadd⟩ := Checked.bind_eq_ok.mp hreplace
  rcases replaceOld_eq_ok hold with ⟨rfl, hnone, rfl⟩ | ⟨a, ha, ⟨rfl, hupdate⟩ | ⟨rfl, -, hremove⟩⟩
  · refine (h.addLocked ?_ hadd).mono fun n hn => hn.1
    intro b old hb
    rw [hnone] at hb
    cases hb
  · cases hadd
    obtain ⟨d, hd, (⟨hdone, -⟩ | ⟨-, -, rfl⟩)⟩ := updateInPlace_eq_ok hupdate
    · cases hdone
    exact h.write hd rfl rfl rfl
  · obtain ⟨d, hd, hid, -⟩ := h.device ha
    have hholds : map.Holds a d := ⟨dev.id, ha, hd⟩
    obtain ⟨hindexed, hdevices, hrest⟩ := h.removeLocked hholds hremove
    have hgone : m.devices.get dev.id = none := by
      rw [hdevices, HashMap.get_remove, if_pos hid.symm]
    have hfree : ∀ b old, m.devices.get dev.id = some b → m.objects.find? b = some old →
        m.nameToId.get old.name = some b → old.name = dev.name := by
      intro b old hb
      rw [hgone] at hb
      cases hb
    -- the name that the removal loses is added again, or no other device has it
    rcases hkeep a ha with ⟨d', hd', hname⟩ | hsole
    · obtain rfl : d = d' := Option.some.inj (hd.symm.trans hd')
      refine (hindexed.addLocked hfree hadd).mono ?_
      rintro n ⟨hfalse | hn, hne⟩
      · exact hfalse
      · exact hne (hn.trans hname)
    · have hwell := h.removeLocked_sole hholds hsole hremove
      exact (hwell.addLocked hfree hadd).mono fun n hn => hn.1

/-- One call, from a state with its indexes in order. -/
theorem WellIndexed.call {c : Call} (h : map.WellIndexed) (hkeep : map.KeepsIndexes c)
    (hcall : map.call c = .ok map') : map'.WellIndexed := by
  cases c with
  | populate devs => exact h.populateDevices hkeep hcall
  | replace dev => exact h.replaceDevice hkeep hcall
  | removeByname n =>
    rcases removedeviceByname_eq_ok hcall with rfl | ⟨a, ha, hremove⟩
    · exact h
    · obtain ⟨d, hd, -⟩ := h.findByname ha
      exact h.removeLocked_sole hd (hkeep a ha) hremove
  | removeByid id =>
    obtain ⟨a, ha, hremove⟩ := removedeviceByid_eq_ok hcall
    obtain ⟨d, hd, -⟩ := h.device ha
    exact h.removeLocked_sole ⟨id, ha, hd⟩ (hkeep a ha) hremove

/-- What the invariant says to those who look names up. -/
theorem WellIndexed.agree (h : map.WellIndexed) : map.IndexesAgree where
  byname := by
    intro n
    cases hn : map.nameToId.get n with
    | none =>
      refine ⟨none, map, ?_, ?_, ?_⟩
      · rw [deviceByname, Devmap.findByname, hn]
        rfl
      · constructor
        · intro hne
          exact absurd rfl hne
        · rintro ⟨a, d, hd, rfl⟩
          exact absurd hn (h.indexed hd not_false)
      · intro a ha
        cases ha
    | some a =>
      obtain ⟨d, hd, hname, hdev⟩ := h.name hn
      have hholds : map.Holds a d := ⟨d.id, hdev, hd⟩
      obtain ⟨m, hretain⟩ : ∃ m, map.retain a = .ok m := by
        rw [retain, Store.read_eq_ok.mpr hd]
        exact ⟨_, rfl⟩
      refine ⟨some a, m, ?_, ?_, ?_⟩
      · rw [deviceByname, Devmap.findByname, hn]
        simp only [Store.read_eq_ok.mpr hd, Checked.ok_bind, hdev, Checked.pure_eq, hretain]
      · exact ⟨fun _ => ⟨a, d, hholds, hname⟩, fun _ => Option.some_ne_none a⟩
      · intro b hb
        cases hb
        exact ⟨d, hholds, hname⟩
  ids := by
    intro n a hn
    obtain ⟨d, hd, -, hdev⟩ := h.name hn
    exact ⟨d, hd, by rw [hdev]; exact Option.some_ne_none a⟩

end Steps

/-- In a run whose calls all meet the condition, the indexes agree at the end, and so after every
call. -/
theorem indexes_agree {calls : List Call} {map : Devmap}
    (hguard : Machine.Guarded callStep KeepsIndexes alloc calls)
    (hrun : Machine.run callStep alloc calls = some map) : map.IndexesAgree := by
  have hstep : ∀ {m : Devmap} {c : Call} {m' : Devmap}, m.WellIndexed → m.KeepsIndexes c →
      m.callStep c = some m' → m'.WellIndexed :=
    fun h hkeep hcall => h.call hkeep (callStep_eq_some.mp hcall)
  exact (hguard.invariant hstep hrun wellIndexed_alloc).agree

/-! ### Two plugs of one name -/

/-- A plug with an id and a name. -/
def plug (id name : Text) : Device where
  protocols := []
  adminState := .unlocked
  created := 0
  description := []
  id := id
  labels := []
  lastConnected := 0
  lastReported := 0
  modified := 0
  name := name
  operatingState := .enabled
  origin := 0
  autos := []
  service := some
    { addressable := none, adminState := .unlocked, created := 0, description := [], id := []
      labels := [], lastConnected := 0, lastReported := 0, modified := 0, name := lit "zigbee"
      operatingState := .enabled, origin := 0 }
  profile := some plugProfile

/-- A plug is created anew before the deletion of the old one is processed. -/
def plugCalls : List Call :=
  [.replace (plug (lit "1") (lit "Plug")), .replace (plug (lit "2") (lit "Plug")),
    .removeByid (lit "1")]

/-- The new plug is in the map, and its name leads nowhere. -/
theorem plugCalls_lose_name :
    ∃ map, Machine.run callStep alloc plugCalls = some map ∧ ¬ map.IndexesAgree := by
  have hlost : (Machine.run callStep alloc plugCalls).map (fun m =>
      ((m.deviceByname (lit "Plug")).map Prod.fst, m.devices.get (lit "2"),
        (m.objects.find? 1).map fun d => d.name)) =
      some (.ok none, some 1, some (lit "Plug")) := by
    decide +kernel
  obtain ⟨map, hrun, hmap⟩ := Option.map_eq_some_iff.mp hlost
  simp only [Prod.mk.injEq] at hmap
  obtain ⟨hnone, hdev, hname⟩ := hmap
  obtain ⟨d, hd, hplug⟩ := Option.map_eq_some_iff.mp hname
  refine ⟨map, hrun, fun hagree => ?_⟩
  obtain ⟨r, m, hr, hiff, -⟩ := hagree.byname (lit "Plug")
  rw [hr] at hnone
  have hsome : r ≠ none := hiff.mpr ⟨1, d, ⟨lit "2", hdev, hd⟩, hplug⟩
  exact hsome (Except.ok.inj hnone)

/-- A plug that comes and goes. -/
def plugVisit : List Call :=
  [.replace (plug (lit "1") (lit "Plug")), .removeByid (lit "1")]

/-- It keeps the indexes in order. -/
theorem plugVisit_indexes_agree :
    ∃ map, Machine.run callStep alloc plugVisit = some map ∧ map.IndexesAgree := by
  have hguard : Machine.Guarded callStep KeepsIndexes alloc plugVisit := by
    refine ⟨fun a ha => ?_, fun m hm => ⟨?_, fun _ _ => trivial⟩⟩
    · cases ha
    have hadd : alloc.addLocked (plug (lit "1") (lit "Plug")) = .ok m := callStep_eq_some.mp hm
    obtain ⟨pp, hadded⟩ := addLocked_eq_ok hadd
    have hzero {id : Text} {a : ObjAddr} (h : m.devices.get id = some a) : a = 0 := by
      rw [hadded.devices, HashMap.get_set] at h
      split at h
      · exact (Option.some.inj h).symm
      · cases h
    rintro a ha d - b e ⟨id, hb, -⟩ -
    rw [hzero hb, hzero ha]
  have hsome : (Machine.run callStep alloc plugVisit).isSome := by decide +kernel
  obtain ⟨map, hrun⟩ := Option.isSome_iff_exists.mp hsome
  exact ⟨map, hrun, indexes_agree hguard hrun⟩

end Devmap

end Zigbee
