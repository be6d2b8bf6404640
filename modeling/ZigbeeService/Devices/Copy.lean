-- SUMMARY: The copies of devices that the map shows under their ids, and how the operations change them.
import ZigbeeService.Devices.Compare
import ZigbeeService.Devices.RefCount

/-!
# The copies in the device map

A lookup by id shows what a device holds itself and the profile it points to. An operation on one id
leaves the copies under the others alone.
-/

namespace Zigbee

open CLib

namespace Devmap

/-- What the map shows under an id: what the device holds itself, and the name of its profile. -/
def copy (map : Devmap) (id : Text) : Option (DeviceInfo × Text) :=
  (map.devices.get id).bind fun a => (map.objects.find? a).bind fun d =>
    (map.profileObjects.find? d.profile).map fun prof => (d.toDeviceInfo, prof.name)

/-- Every registered profile has the name it is registered under, and a property. -/
def Registered (map : Devmap) (P : DeviceProfile → Prop) : Prop :=
  ∀ n pp, map.profiles.get n = some pp →
    ∃ prof, map.profileObjects.find? pp = some prof ∧ prof.name = n ∧ P prof

/-- The comparison and the assignments of `update_in_place` on a copy. -/
def updatedInfo (dest : DeviceInfo) (src : Device) : DeviceInfo :=
  { dest with
    adminState := src.adminState
    operatingState := src.operatingState
    created := src.created
    lastConnected := src.lastConnected
    lastReported := src.lastReported
    modified := src.modified
    origin := src.origin
    description := src.description
    labels := src.labels }

/-- An id leads to a live device of that id, which has a live profile. -/
structure Live (map : Devmap) : Prop where
  device : ∀ {id a}, map.devices.get id = some a → ∃ d prof, map.objects.find? a = some d ∧
    d.id = id ∧ map.profileObjects.find? d.profile = some prof

section Copies

variable {map map' : Devmap} {borrows : List ObjAddr} {P : DeviceProfile → Prop}

theorem copy_eq_some {id : Text} {a : ObjAddr} {d : DeviceObject} {prof : DeviceProfile}
    (ha : map.devices.get id = some a) (hd : map.objects.find? a = some d)
    (hprof : map.profileObjects.find? d.profile = some prof) :
    map.copy id = some (d.toDeviceInfo, prof.name) := by
  simp [copy, ha, hd, hprof]

theorem copy_eq_none {id : Text} (h : map.devices.get id = none) : map.copy id = none := by
  simp [copy, h]

theorem Sound.live (h : map.Sound borrows) : map.Live where
  device ha := by
    obtain ⟨d, hd, hid⟩ := h.counted.device ha
    obtain ⟨prof, hprof⟩ := h.counted.profile hd
    exact ⟨d, prof, hd, hid, hprof⟩

/-- The device behind a copy. -/
theorem Live.copy (h : map.Live) {id : Text} {a : ObjAddr} (ha : map.devices.get id = some a) :
    ∃ d prof, map.objects.find? a = some d ∧ d.id = id ∧
      map.profileObjects.find? d.profile = some prof ∧
      map.copy id = some (d.toDeviceInfo, prof.name) := by
  obtain ⟨d, prof, hd, hid, hprof⟩ := h.device ha
  exact ⟨d, prof, hd, hid, hprof, copy_eq_some ha hd hprof⟩

/-- A copy is seen as before when its device is untouched and its profile kept. -/
theorem Live.copy_congr (h : map.Live) {id : Text}
    (hdevices : map'.devices.get id = map.devices.get id)
    (hobjects : ∀ a d, map.devices.get id = some a → map.objects.find? a = some d →
      map'.objects.find? a = some d)
    (hkept : ProfilesKept map.profileObjects map'.profileObjects) : map'.copy id = map.copy id := by
  cases ha : map.devices.get id with
  | none => rw [copy_eq_none ha, copy_eq_none (hdevices.trans ha)]
  | some a =>
    obtain ⟨d, prof, hd, -, hprof, hcopy⟩ := h.copy ha
    obtain ⟨prof', hprof', hsame⟩ := hkept hprof
    rw [hcopy, copy_eq_some (hdevices.trans ha) (hobjects a d ha hd) hprof', hsame.name_eq]

/-! ## Adding -/

theorem Registered.addLocked {dev : Device} (h : map.Registered P)
    (hP : ∀ {p q}, SameProfile p q → P p → P q)
    (hdev : ∀ p, dev.profile = some p → P (edgexDeviceprofileDup p))
    (hadd : map.addLocked dev = .ok map') : map'.Registered P := by
  obtain ⟨pp, hadded⟩ := addLocked_eq_ok hadd
  intro n a hn
  rcases hadded.registered n a hn with hold | ⟨p, prof, hp, rfl, hprof, hsame⟩
  · obtain ⟨prof, hprof, hname, hprop⟩ := h n a hold
    obtain ⟨prof', hprof', hsame⟩ := hadded.kept hprof
    exact ⟨prof', hprof', hsame.name_eq.trans hname, hP hsame hprop⟩
  · exact ⟨prof, hprof, hsame.name_eq, hP hsame (hdev p hp)⟩

theorem Live.addLocked {dev : Device} (h : map.Live) (hadd : map.addLocked dev = .ok map') :
    map'.Live where
  device := by
    obtain ⟨pp, hadded⟩ := addLocked_eq_ok hadd
    intro id a ha
    rw [hadded.devices, HashMap.get_set] at ha
    rw [hadded.objects]
    split at ha
    · next hid =>
      cases ha
      obtain ⟨-, prof, -, -, hprof⟩ := hadded.profile
      refine ⟨{ copiedInfo dev with profile := pp, refs := 1 }, prof, ?_, hid.symm, hprof⟩
      rw [Store.find?_alloc, if_pos rfl]
    · obtain ⟨d, prof, hd, hid, hprof⟩ := h.device ha
      obtain ⟨prof', hprof', -⟩ := hadded.kept hprof
      exact ⟨d, prof', Store.find?_alloc_of_some hd, hid, hprof'⟩

theorem Live.copy_addLocked {dev : Device} {p : DeviceProfile} (h : map.Live)
    (hregistered : map.Registered P) (hp : dev.profile = some p)
    (hadd : map.addLocked dev = .ok map') (id : Text) :
    map'.copy id = if id = dev.id then some (copiedInfo dev, p.name) else map.copy id := by
  obtain ⟨pp, hadded⟩ := addLocked_eq_ok hadd
  split
  · next heq =>
    obtain ⟨p', prof, hp', hget, hprof⟩ := hadded.profile
    rw [hp, Option.some_inj] at hp'
    subst hp'
    -- the profile is the one that was registered under the name, or a new copy
    have hname : prof.name = p.name := by
      rcases hadded.registered _ _ hget with hold | ⟨q, prof', hq, -, hprof', hsame⟩
      · obtain ⟨prof₀, hprof₀, hname, -⟩ := hregistered _ _ hold
        obtain ⟨prof', hprof', hsame⟩ := hadded.kept hprof₀
        rw [hprof, Option.some_inj] at hprof'
        rw [hprof', hsame.name_eq, hname]
      · rw [hp, Option.some_inj] at hq
        subst hq
        rw [hprof, Option.some_inj] at hprof'
        rw [hprof', hsame.name_eq]
        rfl
    rw [← hname, heq]
    refine copy_eq_some (d := { copiedInfo dev with profile := pp, refs := 1 })
      (a := map.objects.size) ?_ ?_ hprof
    · rw [hadded.devices, HashMap.get_set, if_pos rfl]
    · rw [hadded.objects, Store.find?_alloc, if_pos rfl]
  · next hne =>
    refine h.copy_congr ?_ ?_ hadded.kept
    · rw [hadded.devices, HashMap.get_set, if_neg hne]
    · intro a d _ hd
      rw [hadded.objects]
      exact Store.find?_alloc_of_some hd

/-! ## Removing -/

theorem Live.copy_removeLocked {id₀ : Text} {a : ObjAddr} (h : map.Live)
    (ha : map.devices.get id₀ = some a) (hremove : map.removeLocked a = .ok map') (id : Text) :
    map'.copy id = if id = id₀ then none else map.copy id := by
  obtain ⟨d, -, hd, hid, -⟩ := h.device ha
  obtain ⟨d', hd', hdevices, hprofiles, hobjects⟩ := removeLocked_kept hremove
  obtain rfl : d = d' := Option.some.inj (hd.symm.trans hd')
  subst hid
  split
  · next heq =>
    refine copy_eq_none ?_
    rw [hdevices, HashMap.get_remove, if_pos heq]
  · next hne =>
    refine h.copy_congr ?_ ?_ ?_
    · rw [hdevices, HashMap.get_remove, if_neg hne]
    · intro b e hb he
      refine hobjects b e ?_ he
      rintro rfl
      obtain ⟨e', -, he', hid', -⟩ := h.device hb
      rw [hd] at he'
      cases he'
      exact hne hid'.symm
    · rw [hprofiles]
      exact .refl _

theorem Live.removeLocked {id₀ : Text} {a : ObjAddr} (h : map.Live)
    (ha : map.devices.get id₀ = some a) (hremove : map.removeLocked a = .ok map') : map'.Live where
  device := by
    obtain ⟨d, hd, hdevices, hprofiles, hobjects⟩ := removeLocked_kept hremove
    intro id b hb
    rw [hdevices, HashMap.get_remove] at hb
    split at hb
    · cases hb
    · next hne =>
      obtain ⟨e, prof, he, hid, hprof⟩ := h.device hb
      rw [hprofiles]
      refine ⟨e, prof, hobjects b e ?_ he, hid, hprof⟩
      rintro rfl
      rw [hd] at he
      cases he
      exact hne hid.symm

/-- The profiles that are registered, and their objects, are not touched by a removal. -/
theorem Registered.removeLocked {a : ObjAddr} (h : map.Registered P)
    (hremove : map.removeLocked a = .ok map') : map'.Registered P := by
  obtain ⟨d, -, hrelease⟩ := removeLocked_eq_ok hremove
  obtain ⟨-, -, ⟨-, rfl⟩ | ⟨-, rfl⟩⟩ := release_eq_ok hrelease <;> exact h

/-! ## Replacing -/

/-- What may stand under the id of a device after `edgex_devmap_replace_device`: a copy of it, or the
old one updated because it compared equal. -/
inductive Replaced (old : Option (DeviceInfo × Text)) (dev : Device) (p : DeviceProfile) :
    DeviceInfo × Text → Prop where
  | added : Replaced old dev p (copiedInfo dev, p.name)
  | updated {info : DeviceInfo} : old = some (info, p.name) → info.name = dev.name →
      info.id = dev.id → edgexDeviceAutoeventsEqual info.autos dev.autos = true →
      edgexProtocolsEqual info.protocols dev.protocols = true →
      Replaced old dev p (updatedInfo info dev, p.name)

/-- The effect of an update in place on the copies. -/
theorem Live.copy_updateInPlace {dev : Device} {p : DeviceProfile} {a : ObjAddr}
    (h : map.Live) (ha : map.devices.get dev.id = some a) (hp : dev.profile = some p)
    (hupdate : map.updateInPlace a dev = .ok (true, map')) :
    map'.profiles = map.profiles ∧ map'.profileObjects = map.profileObjects ∧
      (∀ id, id ≠ dev.id → map'.copy id = map.copy id) ∧
      ∃ c, map'.copy dev.id = some c ∧ Replaced (map.copy dev.id) dev p c := by
  obtain ⟨d, prof, hd, hid, hprof, hcopy⟩ := h.copy ha
  obtain ⟨d', hd', ⟨hdone, -⟩ | ⟨-, ⟨prof', p', hprof', hp', hplace⟩, rfl⟩⟩ :=
    updateInPlace_eq_ok hupdate
  · cases hdone
  obtain rfl : d = d' := Option.some.inj (hd.symm.trans hd')
  obtain rfl : prof = prof' := Option.some.inj (hprof.symm.trans hprof')
  obtain rfl : p = p' := Option.some.inj (hp.symm.trans hp')
  simp only [inPlace, Bool.decide_and, Bool.decide_eq_true, Bool.and_eq_true,
    decide_eq_true_eq] at hplace
  obtain ⟨hname, hprofile, hautos, hprotocols⟩ := hplace
  refine ⟨rfl, rfl, fun id hne => ?_, _, ?_, .updated ?_ hname hid hautos hprotocols⟩
  · refine h.copy_congr rfl ?_ (.refl _)
    intro b e hb he
    show (map.objects.write a (updated d dev)).find? b = some e
    rw [Store.find?_write hd, if_neg, he]
    -- the object that is written stands under the id of the device only
    rintro rfl
    obtain ⟨e', -, he', hid', -⟩ := h.device hb
    rw [hd] at he'
    cases he'
    exact hne (hid'.symm.trans hid)
  · have hwrite : (map.objects.write a (updated d dev)).find? a = some (updated d dev) := by
      rw [Store.find?_write hd, if_pos rfl]
    rw [← hprofile]
    refine copy_eq_some (d := updated d dev) ?_ hwrite hprof
    exact ha
  · rw [← hprofile]
    exact hcopy

/-- The effect of `edgex_devmap_replace_device` on the copies. -/
theorem Live.copy_replaceDevice {dev : Device} {p : DeviceProfile} (h : map.Live)
    (hregistered : map.Registered P) (hp : dev.profile = some p)
    (hreplace : map.replaceDevice dev = .ok map') :
    (∀ id, id ≠ dev.id → map'.copy id = map.copy id) ∧
      ∃ c, map'.copy dev.id = some c ∧ Replaced (map.copy dev.id) dev p c := by
  obtain ⟨⟨add, m⟩, hold, hadd⟩ := Checked.bind_eq_ok.mp hreplace
  have hadded {m : Devmap} (hm : m.Live) (hreg : m.Registered P)
      (hother : ∀ id, id ≠ dev.id → m.copy id = map.copy id) (hadd : m.addLocked dev = .ok map') :
      (∀ id, id ≠ dev.id → map'.copy id = map.copy id) ∧
        ∃ c, map'.copy dev.id = some c ∧ Replaced (map.copy dev.id) dev p c := by
    have hcopy := hm.copy_addLocked hreg hp hadd
    refine ⟨fun id hne => ?_, _, by rw [hcopy, if_pos rfl], .added⟩
    rw [hcopy, if_neg hne, hother id hne]
  rcases replaceOld_eq_ok hold with ⟨rfl, hnone, rfl⟩ | ⟨a, ha, ⟨rfl, hupdate⟩ | ⟨rfl, -, hremove⟩⟩
  · exact hadded h hregistered (fun _ _ => rfl) hadd
  · cases hadd
    obtain ⟨-, -, hother, hcopy⟩ := h.copy_updateInPlace ha hp hupdate
    exact ⟨hother, hcopy⟩
  · have hcopy := h.copy_removeLocked ha hremove
    refine hadded (h.removeLocked ha hremove) (hregistered.removeLocked hremove) ?_ hadd
    intro id hne
    rw [hcopy, if_neg hne]

theorem Live.replaceOld {dev : Device} {add : Bool} (h : map.Live)
    (hold : map.replaceOld dev = .ok (add, map')) : map'.Live := by
  rcases replaceOld_eq_ok hold with ⟨-, -, rfl⟩ | ⟨a, ha, ⟨-, hupdate⟩ | ⟨-, -, hremove⟩⟩
  · exact h
  · obtain ⟨d, hd, ⟨hdone, -⟩ | ⟨-, -, rfl⟩⟩ := updateInPlace_eq_ok hupdate
    · cases hdone
    · -- the object stays where it was, with its id and its profile
      constructor
      intro id b hb
      obtain ⟨e, prof, he, hid, hprof⟩ := h.device hb
      show ∃ f prof', (map.objects.write a (updated d dev)).find? b = some f ∧ f.id = id ∧
        map.profileObjects.find? f.profile = some prof'
      rw [Store.find?_write hd]
      split
      · next heq =>
        subst heq
        cases hd.symm.trans he
        exact ⟨_, prof, rfl, hid, hprof⟩
      · exact ⟨e, prof, he, hid, hprof⟩
  · exact h.removeLocked ha hremove

/-- Behind a replacement the map leads to live devices still. -/
theorem Live.replaceDevice {dev : Device} (h : map.Live)
    (hreplace : map.replaceDevice dev = .ok map') : map'.Live := by
  obtain ⟨⟨add, m⟩, hold, hadd⟩ := Checked.bind_eq_ok.mp hreplace
  have hm := h.replaceOld hold
  cases add with
  | true => exact hm.addLocked hadd
  | false =>
    cases hadd
    exact hm

theorem Registered.replaceOld {dev : Device} {add : Bool} (h : map.Registered P)
    (hold : map.replaceOld dev = .ok (add, map')) : map'.Registered P := by
  rcases replaceOld_eq_ok hold with ⟨-, -, rfl⟩ | ⟨a, -, ⟨-, hupdate⟩ | ⟨-, -, hremove⟩⟩
  · exact h
  · obtain ⟨d, -, ⟨-, rfl⟩ | ⟨-, -, rfl⟩⟩ := updateInPlace_eq_ok hupdate <;> exact h
  · exact h.removeLocked hremove

/-- The registered profiles after a replacement. -/
theorem Registered.replaceDevice {dev : Device} {p : DeviceProfile} (h : map.Registered P)
    (hP : ∀ {p q}, SameProfile p q → P p → P q) (hp : dev.profile = some p)
    (hdev : P (edgexDeviceprofileDup p)) (hreplace : map.replaceDevice dev = .ok map') :
    map'.Registered P := by
  have hdev' : ∀ q, dev.profile = some q → P (edgexDeviceprofileDup q) := by
    intro q hq
    rw [hp, Option.some_inj] at hq
    exact hq ▸ hdev
  obtain ⟨⟨add, m⟩, hold, hadd⟩ := Checked.bind_eq_ok.mp hreplace
  have hm := h.replaceOld hold
  cases add with
  | true => exact hm.addLocked hP hdev' hadd
  | false =>
    cases hadd
    exact hm

/-- Behind a replacement the maps lead to live objects still. -/
theorem Sound.replaceDevice {dev : Device} (h : map.Sound borrows)
    (hreplace : map.replaceDevice dev = .ok map') : map'.Sound borrows := by
  obtain ⟨⟨add, m⟩, hold, hadd⟩ := Checked.bind_eq_ok.mp hreplace
  obtain ⟨hsound, hfree⟩ := h.replaceOld hold
  cases add with
  | true => exact hsound.addLocked (hfree rfl) hadd
  | false =>
    cases hadd
    exact hsound

/-! ## Calls that return -/

theorem Live.copy_eq_none_iff (h : map.Live) {id : Text} :
    map.copy id = none ↔ map.devices.get id = none := by
  refine ⟨fun hnone => ?_, copy_eq_none⟩
  apply Option.eq_none_iff_forall_ne_some.mpr
  intro a ha
  obtain ⟨d, prof, -, -, -, hcopy⟩ := h.copy ha
  rw [hnone] at hcopy
  cases hcopy

theorem removeLocked_ok {a : ObjAddr} {d : DeviceObject} (hd : map.objects.find? a = some d) :
    ∃ map', map.removeLocked a = .ok map' := by
  rw [Devmap.removeLocked, Store.read_eq_ok.mpr hd, Checked.ok_bind, release,
    Store.read_eq_ok.mpr hd, Checked.ok_bind]
  split <;> exact ⟨_, rfl⟩

/-- A device in the map can be removed. -/
theorem Sound.removedeviceByid_ok {id : Text} (h : map.Sound borrows)
    (hid : map.devices.get id ≠ none) :
    ∃ a map', map.devices.get id = some a ∧ map.removeLocked a = .ok map' ∧
      map.removedeviceByid id = .ok map' := by
  obtain ⟨a, ha⟩ := Option.ne_none_iff_exists'.mp hid
  obtain ⟨d, hd, -⟩ := h.counted.device ha
  obtain ⟨map', hmap'⟩ := removeLocked_ok hd
  refine ⟨a, map', ha, hmap', ?_⟩
  simp only [removedeviceByid, ha, hmap']

/-- A device with its records, whose profile can be searched, can be added. -/
theorem Registered.addLocked_ok {dev : Device} {p : DeviceProfile} {service : DeviceService}
    (h : map.Registered DeviceProfile.OpsNamed) (hp : dev.profile = some p) (hnamed : p.OpsNamed)
    (hservice : dev.service = some service) : ∃ map', map.addLocked dev = .ok map' := by
  have hdup : edgexDeviceDup dev = .ok { dev with
      protocols := edgexProtocolsDup dev.protocols
      service := some service
      profile := some (edgexDeviceprofileDup p) } := by
    simp only [edgexDeviceDup, hservice, hp, Option.map_some]
  obtain ⟨pp, m, hshare, -, -, -, hget, hregistered, hkept⟩ :=
    map.shareProfile_spec (edgexDeviceprofileDup p)
  have hprof : ∃ prof, m.profileObjects.find? pp = some prof ∧ prof.OpsNamed := by
    rcases hregistered _ _ hget with hold | ⟨-, hnew⟩
    · obtain ⟨prof, hprof, -, hops⟩ := h _ _ hold
      obtain ⟨prof', hprof', hsame⟩ := hkept hprof
      exact ⟨prof', hprof', hsame.opsNamed hops⟩
    · exact ⟨_, hnew, hnamed⟩
  -- the automatic events search the table of the profile, whichever of the two it is
  obtain ⟨prof, hfind, hops⟩ := hprof
  obtain ⟨prof', hstart⟩ := autoeventStart_ok dev.autos hops
  rw [Devmap.addLocked, hdup, Checked.ok_bind]
  simp only [hshare, Store.read_eq_ok.mpr hfind, Checked.ok_bind, hstart]
  exact ⟨_, rfl⟩

/-- What adding and replacing devices relies on: the map leads to live devices with live profiles,
under their own ids, and registered profiles can be searched. -/
structure Held (map : Devmap) : Prop where
  device : ∀ {id a}, map.devices.get id = some a → ∃ d prof, map.objects.find? a = some d ∧
    d.id = id ∧ map.profileObjects.find? d.profile = some prof
  registered : map.Registered DeviceProfile.OpsNamed

theorem Held.live (h : map.Held) : map.Live := ⟨h.device⟩

theorem Sound.held (h : map.Sound borrows)
    (hregistered : map.Registered DeviceProfile.OpsNamed) : map.Held :=
  ⟨h.live.device, hregistered⟩

theorem Held.addLocked {dev : Device} {p : DeviceProfile} (h : map.Held)
    (hp : dev.profile = some p) (hnamed : p.OpsNamed) (hadd : map.addLocked dev = .ok map') :
    map'.Held := by
  refine ⟨(h.live.addLocked hadd).device, ?_⟩
  refine h.registered.addLocked (fun hsame hops => hsame.opsNamed hops) ?_ hadd
  intro q hq
  rw [hp, Option.some_inj] at hq
  exact hq ▸ hnamed

theorem Held.removeLocked {id : Text} {a : ObjAddr} (h : map.Held)
    (ha : map.devices.get id = some a) (hremove : map.removeLocked a = .ok map') : map'.Held :=
  ⟨(h.live.removeLocked ha hremove).device, h.registered.removeLocked hremove⟩

/-- The first part of a replacement returns. -/
theorem Held.replaceOld_ok {dev : Device} {p : DeviceProfile} (h : map.Held)
    (hp : dev.profile = some p) : ∃ add map', map.replaceOld dev = .ok (add, map') ∧ map'.Held := by
  have hreturns : ∃ r, map.replaceOld dev = .ok r := by
    unfold Devmap.replaceOld
    cases ha : map.devices.get dev.id with
    | none => exact ⟨_, rfl⟩
    | some a =>
      obtain ⟨d, prof, hd, hid, hprof⟩ := h.device ha
      have hupdate : ∃ r, map.updateInPlace a dev = .ok r := by
        rw [Devmap.updateInPlace, Store.read_eq_ok.mpr hd, Checked.ok_bind]
        split
        · exact ⟨_, rfl⟩
        · simp only [Store.read_eq_ok.mpr hprof, Checked.ok_bind, hp]
          split <;> exact ⟨_, rfl⟩
      obtain ⟨⟨done, m⟩, hupdate⟩ := hupdate
      dsimp only
      rw [hupdate, Checked.ok_bind]
      obtain ⟨d', hd', ⟨rfl, rfl⟩ | ⟨rfl, -, rfl⟩⟩ := updateInPlace_eq_ok hupdate
      · obtain ⟨map', hmap'⟩ := removeLocked_ok hd
        simp only [Bool.false_eq_true, if_false, hmap', Checked.ok_bind]
        exact ⟨_, rfl⟩
      · exact ⟨_, rfl⟩
  obtain ⟨⟨add, m⟩, hold⟩ := hreturns
  exact ⟨add, m, hold, (h.live.replaceOld hold).device, h.registered.replaceOld hold⟩

theorem Held.replaceDevice_ok {dev : Device} {p : DeviceProfile} {service : DeviceService}
    (h : map.Held) (hp : dev.profile = some p) (hnamed : p.OpsNamed)
    (hservice : dev.service = some service) :
    ∃ map', map.replaceDevice dev = .ok map' ∧ map'.Held := by
  obtain ⟨add, m, hold, hm⟩ := h.replaceOld_ok hp
  rw [Devmap.replaceDevice, hold, Checked.ok_bind]
  cases add with
  | true =>
    obtain ⟨map', hadd⟩ := hm.registered.addLocked_ok hp hnamed hservice
    exact ⟨map', hadd, hm.addLocked hp hnamed hadd⟩
  | false => exact ⟨m, rfl, hm⟩

theorem Sound.replaceDevice_ok {dev : Device} {p : DeviceProfile} {service : DeviceService}
    (h : map.Sound borrows) (hregistered : map.Registered DeviceProfile.OpsNamed)
    (hp : dev.profile = some p) (hnamed : p.OpsNamed) (hservice : dev.service = some service) :
    ∃ map', map.replaceDevice dev = .ok map' := by
  obtain ⟨map', hreplace, -⟩ := (h.held hregistered).replaceDevice_ok hp hnamed hservice
  exact ⟨map', hreplace⟩

end Copies

end Devmap

end Zigbee
