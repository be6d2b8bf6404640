-- SUMMARY: Removing a device by its id or name: when it takes that device out of the map and nothing else.
import ZigbeeService.Devices.Callback
import ZigbeeService.Devices.Clear

/-!
# Removing a device

`edgex_devmap_removedevice_byname` looks whether the name is there. `edgex_devmap_removedevice_byid`
does not look whether the id is, and neither do the callbacks that call it. `remove_locked` takes the
device's name out of `name_to_id` whatever that entry leads to.
-/

namespace Zigbee

open CLib

namespace Devmap

/-- The device `a` is out of both indexes and has lost the reference of the map; everything else is
as it was. -/
structure RemovesOnly (map : Devmap) (id : Text) (a : ObjAddr) (map' : Devmap) : Prop where
  ids : ∀ i, map'.devices.get i = if i = id then none else map.devices.get i
  names : ∀ n, map'.nameToId.get n =
    if map.nameToId.get n = some a then none else map.nameToId.get n
  refs : map'.refsOf a + 1 = map.refsOf a
  record : ∀ d d', map.objects.find? a = some d → map'.objects.find? a = some d' →
    d' = { d with refs := d'.refs }
  others : ∀ b, b ≠ a → map'.objects.find? b = map.objects.find? b
  profiles : map'.profiles = map.profiles
  profileObjects : map'.profileObjects = map.profileObjects

/-- `edgex_devmap_removedevice_byid` leaves the map alone when the id is not there, and else removes
its device. -/
def RemovalWorks (map : Devmap) (id : Text) : Prop :=
  match map.devices.get id with
  | none => map.removedeviceByid id = .ok map
  | some a => ∃ map', map.removedeviceByid id = .ok map' ∧ map.RemovesOnly id a map'

/-- The id is there, and its device's name leads to no other device. -/
def LeadsToItself (map : Devmap) (id : Text) : Prop :=
  ∃ a d, map.devices.get id = some a ∧ map.objects.find? a = some d ∧
    ∀ b, map.nameToId.get d.name = some b → b = a

section Removal

variable {map map' : Devmap} {borrows : List ObjAddr} {a : ObjAddr} {d : DeviceObject} {id : Text}

/-- A release takes a reference of one object and leaves its record alone. -/
theorem release_objects (h : map.release a = .ok map') :
    (∀ d d', map.objects.find? a = some d → map'.objects.find? a = some d' →
      d' = { d with refs := d'.refs }) ∧
      (∀ b, b ≠ a → map'.objects.find? b = map.objects.find? b) ∧
      map'.profiles = map.profiles ∧ map'.profileObjects = map.profileObjects := by
  obtain ⟨e, he, ⟨-, rfl⟩ | ⟨-, rfl⟩⟩ := release_eq_ok h
  · refine ⟨fun d d' _ hd' => ?_, fun b hb => ?_, rfl, rfl⟩
    · rw [Store.find?_free, if_pos rfl] at hd'
      cases hd'
    · rw [Store.find?_free, if_neg hb]
  · refine ⟨fun d d' hd hd' => ?_, fun b hb => ?_, rfl, rfl⟩
    · rw [Store.find?_write he, if_pos rfl] at hd'
      cases he.symm.trans hd
      cases hd'
      rfl
    · rw [Store.find?_write he, if_neg hb]

/-- What a name leads to has that name. -/
theorem Standing.name_eq (h : map.Standing borrows) {n : Text}
    (hn : map.nameToId.get n = some a) (hd : map.objects.find? a = some d) : d.name = n := by
  obtain ⟨e, he, hname, -⟩ := h.names n a hn
  cases hd.symm.trans he
  exact hname

/-- Taking the name out is right when it leads to the device or nowhere. -/
theorem Standing.removesName_iff (h : map.Standing borrows) (hd : map.objects.find? a = some d) :
    (∀ n, (map.nameToId.remove d.name).get n =
        if map.nameToId.get n = some a then none else map.nameToId.get n) ↔
      ∀ b, map.nameToId.get d.name = some b → b = a := by
  constructor
  · intro hnames b hb
    have hname := hnames d.name
    rw [HashMap.get_remove, if_pos rfl, hb] at hname
    by_contra hne
    rw [if_neg (by simpa using hne)] at hname
    cases hname
  · intro hself n
    rw [HashMap.get_remove]
    by_cases hn : n = d.name
    · rw [if_pos hn, hn]
      cases hb : map.nameToId.get d.name with
      | none => rfl
      | some b => rw [hself b hb, if_pos rfl]
    · -- another name leads to another device
      rw [if_neg hn, if_neg fun hlead => hn (h.name_eq hlead hd).symm]

/-- `remove_locked` on a device of the map. -/
theorem Standing.removesOnly_iff (h : map.Standing borrows) (ha : map.devices.get id = some a)
    (hd : map.objects.find? a = some d) (hremove : map.removeLocked a = .ok map') :
    map.RemovesOnly id a map' ↔ ∀ b, map.nameToId.get d.name = some b → b = a := by
  obtain ⟨hdevices, hnames⟩ := removeLocked_indexes hd hremove
  obtain ⟨e, he, rfl, hcount⟩ := h.backed.device ha
  obtain rfl : d = e := Option.some.inj (hd.symm.trans he)
  obtain ⟨d', -, hrelease⟩ := removeLocked_eq_ok hremove
  rw [← h.removesName_iff hd, ← hnames]
  refine ⟨fun hremoves => hremoves.names, fun hname => ?_⟩
  have hpos : 0 < map.refsOf a := by
    rw [refsOf_of_some hd]
    exact Nat.zero_lt_of_lt hcount
  have hpos' : 0 < refsOf { map with
      nameToId := map.nameToId.remove d'.name, devices := map.devices.remove d'.id } a := hpos
  obtain ⟨hrecord, hothers, hprofiles, hprofileObjects⟩ := release_objects hrelease
  exact {
    ids := fun i => by rw [hdevices, HashMap.get_remove]
    names := hname
    refs := (release_refsOf hpos' hrelease).1
    record := hrecord
    others := hothers
    profiles := hprofiles
    profileObjects := hprofileObjects }

theorem removedeviceByid_absent (h : map.devices.get id = none) :
    map.removedeviceByid id = .error .nullPointer := by
  rw [removedeviceByid, h]

/-- Removal by id works exactly when the id is there and its device's name leads to no other. -/
theorem Standing.removalWorks_iff (h : map.Standing borrows) :
    map.RemovalWorks id ↔ map.LeadsToItself id := by
  unfold RemovalWorks LeadsToItself
  cases ha : map.devices.get id with
  | none =>
    dsimp only
    rw [removedeviceByid_absent ha]
    exact ⟨nofun, fun ⟨_, _, hnone, _⟩ => nomatch hnone⟩
  | some a =>
    obtain ⟨d, hd, -⟩ := h.backed.device ha
    obtain ⟨map', hremove⟩ := removeLocked_ok hd
    have hbyid : map.removedeviceByid id = .ok map' := by
      rw [removedeviceByid, ha]
      exact hremove
    have hiff := h.removesOnly_iff ha hd hremove
    constructor
    · rintro ⟨map'', hbyid', hremoves⟩
      cases hbyid.symm.trans hbyid'
      exact ⟨a, d, rfl, hd, hiff.mp hremoves⟩
    · rintro ⟨b, e, hb, he, hself⟩
      cases hb
      cases hd.symm.trans he
      exact ⟨map', hbyid, hiff.mpr hself⟩

end Removal

-- ---------------------------------------------------------------------------
-- Any map that the threads reach
-- ---------------------------------------------------------------------------

/-- An unknown name is passed over. By id, the device and nothing else is removed, exactly when the
id is there and its device's name leads to no other device; a callback for an id that is not there
follows a null pointer. -/
theorem removedevice_removes_iff {as : List Action} {s : Threads}
    (hrun : Machine.run (Machine.checked threadsStep) (.ok .init) as = some (.ok s))
    (hidle : s.phase = .reading []) :
    (∀ name, s.map.nameToId.get name = none → s.map.removedeviceByname name = .ok s.map) ∧
      (∀ id, s.map.RemovalWorks id ↔ s.map.LeadsToItself id) ∧
      ∀ (service : Text) (c : Callbacks) (place : Nat) (h : CallbackHandler), c.map = s.map →
        Callbacks.Removes service h →
          c.handle service place h = c.finish place (s.map.removedeviceByid h.id) ∧
          (s.map.devices.get h.id = none → c.handle service place h = .error .nullPointer) := by
  refine ⟨fun name hnone => ?_, fun id => (Threads.standing_of_run hrun hidle).removalWorks_iff, ?_⟩
  · simp only [removedeviceByname, findByname, hnone, Checked.pure_eq, Checked.ok_bind]
  · intro service c place h hmap hremoves
    have hhandle : c.handle service place h = c.finish place (s.map.removedeviceByid h.id) := by
      cases h with
      | received method id =>
        cases method with
        | delete => rw [Callbacks.handle, hmap, CallbackHandler.id]
        | post => exact hremoves.elim
        | put => exact hremoves.elim
      | fetched id newdev =>
        have hmoved : newdev.service.name ≠ service := hremoves
        rw [Callbacks.handle, if_pos hmoved, hmap, CallbackHandler.id]
    refine ⟨hhandle, fun hnone => ?_⟩
    rw [hhandle, removedeviceByid_absent hnone]
    rfl

/-- A plug that was added is removed. -/
theorem removedevice_removes_plug :
    ∃ (s : Threads) (map' : Devmap), s.map.removedeviceByid (lit "1") = .ok map' ∧
      s.map.RemovesOnly (lit "1") 0 map' := by
  obtain ⟨s, hs⟩ := Machine.exists_ok (r := Machine.run (Machine.checked threadsStep) (.ok .init)
    [.wrlock (.replace (plug (lit "1") (lit "Plug"))), .write, .write, .write]) (by decide +kernel)
  obtain ⟨hidle, hid, d, hd, hname⟩ : s.phase = .reading [] ∧
      s.map.devices.get (lit "1") = some 0 ∧ ∃ d, s.map.objects.find? 0 = some d ∧
        s.map.nameToId.get d.name = some 0 := by
    cases hs
    exact ⟨rfl, rfl, _, rfl, rfl⟩
  have hworks : s.map.RemovalWorks (lit "1") := by
    refine ((removedevice_removes_iff hs hidle).2.1 (lit "1")).mpr ⟨0, d, hid, hd, fun b hb => ?_⟩
    exact (Option.some.inj (hname.symm.trans hb)).symm
  unfold RemovalWorks at hworks
  rw [hid] at hworks
  obtain ⟨map', hbyid, hremoves⟩ := hworks
  exact ⟨s, map', hbyid, hremoves⟩

/-- The callback that deletes a device which was never held follows a null pointer. -/
theorem removedevice_neverHeld :
    Machine.run (Machine.checked threadsStep) (.ok .init) [] = some (.ok .init) ∧
      Threads.init.phase = .reading [] ∧ Threads.init.map.devices.get (lit "1") = none ∧
      ¬ Threads.init.map.RemovalWorks (lit "1") ∧
      Callbacks.handle (lit "zigbee")
        { Callbacks.init with handlers := [.received .delete (lit "1")] } 0
        (.received .delete (lit "1")) = .error .nullPointer := by
  refine ⟨rfl, rfl, rfl, ?_, rfl⟩
  intro hworks
  have habsent : Threads.init.map.removedeviceByid (lit "1") = .ok Threads.init.map := hworks
  cases habsent

end Devmap

end Zigbee
