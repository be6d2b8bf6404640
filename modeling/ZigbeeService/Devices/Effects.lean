-- SUMMARY: What each operation of the device map does to the maps and the objects, told once.
import ZigbeeService.Devices.Map

/-!
# Effects on the device map

One inversion lemma for each operation. A profile object only ever changes in its table of commands.
-/

namespace Zigbee

open CLib

/-! ## Profiles -/

/-- The same profile, up to the table of commands. -/
def SameProfile (p q : DeviceProfile) : Prop := { q with cmdinfo := p.cmdinfo } = p

theorem SameProfile.refl (p : DeviceProfile) : SameProfile p p := rfl

theorem SameProfile.trans {p q r : DeviceProfile} (h : SameProfile p q) (h' : SameProfile q r) :
    SameProfile p r := by
  unfold SameProfile at *
  rw [← h, ← h']

theorem SameProfile.name_eq {p q : DeviceProfile} (h : SameProfile p q) : q.name = p.name := by
  unfold SameProfile at h
  rw [← h]

theorem SameProfile.opsNamed {p q : DeviceProfile} (h : SameProfile p q) (hp : p.OpsNamed) :
    q.OpsNamed := by
  unfold SameProfile at h
  rw [← h] at hp
  exact hp

theorem SameProfile.dup_eq {p q : DeviceProfile} (h : SameProfile p q) :
    edgexDeviceprofileDup q = edgexDeviceprofileDup p := by
  unfold SameProfile at h
  rw [← h]
  rfl

theorem ensureCmdInfo_sameProfile {p q : DeviceProfile} (h : ensureCmdInfo p = .ok q) :
    SameProfile p q := by
  unfold ensureCmdInfo at h
  split at h
  · obtain ⟨table, -, h⟩ := Checked.bind_eq_ok.mp h
    cases h
    rfl
  · cases h
    rfl

theorem findcommand_sameProfile {name : Text} {p q : DeviceProfile} {forGet : Bool}
    {info : Option CmdInfo} (h : edgexDeviceprofileFindcommand name p forGet = .ok (info, q)) :
    SameProfile p q := by
  obtain ⟨r, hr, h⟩ := Checked.bind_eq_ok.mp h
  cases h
  exact ensureCmdInfo_sameProfile hr

theorem autoeventStart_sameProfile {autos : List AutoEvent} {p q : DeviceProfile}
    (h : edgexDeviceAutoeventStart p autos = .ok q) : SameProfile p q := by
  induction autos generalizing p with
  | nil =>
    cases h
    rfl
  | cons ae autos ih =>
    obtain ⟨⟨info, r⟩, hr, h⟩ := Checked.bind_eq_ok.mp h
    exact (findcommand_sameProfile hr).trans (ih h)

/-- On a profile whose operations are named, the table is built without a fault. -/
theorem findcommand_ok (name : Text) {p : DeviceProfile} (h : p.OpsNamed) (forGet : Bool) :
    ∃ r, edgexDeviceprofileFindcommand name p forGet = .ok r := by
  unfold edgexDeviceprofileFindcommand ensureCmdInfo
  split
  · rw [populateCmdInfo_eq h]
    exact ⟨_, rfl⟩
  · exact ⟨_, rfl⟩

theorem autoeventStart_ok (autos : List AutoEvent) {p : DeviceProfile} (h : p.OpsNamed) :
    ∃ q, edgexDeviceAutoeventStart p autos = .ok q := by
  induction autos generalizing p with
  | nil => exact ⟨p, rfl⟩
  | cons ae autos ih =>
    obtain ⟨⟨info, q⟩, hq⟩ := findcommand_ok ae.resource h true
    obtain ⟨r, hr⟩ := ih ((findcommand_sameProfile hq).opsNamed h)
    refine ⟨r, ?_⟩
    rw [edgexDeviceAutoeventStart, hq]
    exact hr

/-- Every profile object is still there, with the same contents. -/
def ProfilesKept (st st' : Store DeviceProfile) : Prop :=
  ∀ ⦃a p⦄, st.find? a = some p → ∃ q, st'.find? a = some q ∧ SameProfile p q

theorem ProfilesKept.refl (st : Store DeviceProfile) : ProfilesKept st st :=
  fun _ p h => ⟨p, h, .refl p⟩

theorem ProfilesKept.trans {st st' st'' : Store DeviceProfile} (h : ProfilesKept st st')
    (h' : ProfilesKept st' st'') : ProfilesKept st st'' := by
  intro a p hp
  obtain ⟨q, hq, hpq⟩ := h hp
  obtain ⟨r, hr, hqr⟩ := h' hq
  exact ⟨r, hr, hpq.trans hqr⟩

theorem ProfilesKept.write {st : Store DeviceProfile} {a : ObjAddr} {p q : DeviceProfile}
    (hp : st.find? a = some p) (hpq : SameProfile p q) : ProfilesKept st (st.write a q) := by
  intro b r hr
  rw [Store.find?_write hp]
  split
  · next hb =>
    subst hb
    rw [hp] at hr
    cases hr
    exact ⟨q, rfl, hpq⟩
  · exact ⟨r, hr, .refl r⟩

namespace Devmap

/-! ## Adding -/

/-- What a new device holds itself. -/
def copiedInfo (d : Device) : DeviceInfo :=
  { d.toDeviceInfo with protocols := edgexProtocolsDup d.protocols }

/-- The effect of `add_locked`: the copy points to the profile `pp`. -/
structure Added (map : Devmap) (d : Device) (pp : ObjAddr) (map' : Devmap) : Prop where
  devices : map'.devices = map.devices.set d.id map.objects.size
  nameToId : map'.nameToId = map.nameToId.set d.name map.objects.size
  objects : map'.objects = map.objects.alloc { copiedInfo d with profile := pp, refs := 1 }
  /-- It is the one registered under the name of the device's profile. -/
  profile : ∃ p prof, d.profile = some p ∧ map'.profiles.get p.name = some pp ∧
    map'.profileObjects.find? pp = some prof
  /-- What is newly registered is a copy of the device's profile. -/
  registered : ∀ n a, map'.profiles.get n = some a → map.profiles.get n = some a ∨
    ∃ p prof, d.profile = some p ∧ n = p.name ∧ map'.profileObjects.find? a = some prof ∧
      SameProfile (edgexDeviceprofileDup p) prof
  kept : ProfilesKept map.profileObjects map'.profileObjects

/-- `shareProfile` finds or registers a profile of the name, and keeps the others. -/
theorem shareProfile_spec (map : Devmap) (profile : DeviceProfile) :
    ∃ pp m, map.shareProfile profile = (pp, m) ∧
      m.devices = map.devices ∧ m.nameToId = map.nameToId ∧ m.objects = map.objects ∧
      m.profiles.get profile.name = some pp ∧
      (∀ n a, m.profiles.get n = some a → map.profiles.get n = some a ∨
        n = profile.name ∧ m.profileObjects.find? a = some profile) ∧
      ProfilesKept map.profileObjects m.profileObjects := by
  unfold shareProfile
  cases hpp : map.profiles.get profile.name with
  | some pp => exact ⟨pp, map, rfl, rfl, rfl, rfl, hpp, fun n a h => .inl h, .refl _⟩
  | none =>
    refine ⟨_, _, rfl, rfl, rfl, rfl, ?_, ?_, ?_⟩
    · rw [HashMap.get_set, if_pos rfl]
    · intro n a h
      rw [HashMap.get_set] at h
      split at h
      · next hn =>
        cases h
        exact .inr ⟨hn, by rw [Store.find?_alloc, if_pos rfl]⟩
      · exact .inl h
    · intro a p hp
      exact ⟨p, Store.find?_alloc_of_some hp, .refl p⟩

/-- What `add_locked` goes through: the copy of the profile, the one that is shared, and the table of
commands that starting the automatic events builds. -/
theorem addLocked_parts {map map' : Devmap} {d : Device} (h : map.addLocked d = .ok map') :
    ∃ p pp m prof prof', d.profile = some p ∧
      map.shareProfile (edgexDeviceprofileDup p) = (pp, m) ∧
      m.profileObjects.find? pp = some prof ∧ edgexDeviceAutoeventStart prof d.autos = .ok prof' ∧
      map' = { m with
        devices := m.devices.set d.id m.objects.size
        nameToId := m.nameToId.set d.name m.objects.size
        objects := m.objects.alloc { copiedInfo d with profile := pp, refs := 1 }
        profileObjects := m.profileObjects.write pp prof' } := by
  obtain ⟨dup, hdup, h⟩ := Checked.bind_eq_ok.mp h
  rw [edgexDeviceDup] at hdup
  split at hdup
  · cases hdup
  · next service hservice =>
    cases hdup
    cases hp : d.profile with
    | none =>
      simp only [hp, Option.map_none] at h
      cases h
    | some p =>
      obtain ⟨⟨pp, m⟩, hshare⟩ : ∃ r, map.shareProfile (edgexDeviceprofileDup p) = r := ⟨_, rfl⟩
      simp only [hp, Option.map_some, hshare] at h
      obtain ⟨prof, hprof, h⟩ := Checked.bind_eq_ok.mp h
      obtain ⟨prof', hstart, h⟩ := Checked.bind_eq_ok.mp h
      cases h
      refine ⟨p, pp, m, prof, prof', rfl, hshare, Store.read_eq_ok.mp hprof, hstart, ?_⟩
      rw [copiedInfo, hservice]

theorem addLocked_eq_ok {map map' : Devmap} {d : Device} (h : map.addLocked d = .ok map') :
    ∃ pp, map.Added d pp map' := by
  obtain ⟨p, pp, m, prof, prof', hp, hshare, hprof, hstart, rfl⟩ := addLocked_parts h
  obtain ⟨pp', m', hshare', hdevices, hnames, hobjects, hget, hregistered, hkept⟩ :=
    map.shareProfile_spec (edgexDeviceprofileDup p)
  cases hshare.symm.trans hshare'
  have hwrite := ProfilesKept.write hprof (autoeventStart_sameProfile hstart)
  refine ⟨pp, ?_⟩
  exact {
    devices := by rw [hdevices, hobjects]
    nameToId := by rw [hnames, hobjects]
    objects := by rw [hobjects]
    profile := ⟨p, prof', hp, hget, by rw [Store.find?_write hprof, if_pos rfl]⟩
    registered := by
      intro n a hn
      rcases hregistered n a hn with hold | ⟨hname, hnew⟩
      · exact .inl hold
      · obtain ⟨q, hq, hpq⟩ := hwrite hnew
        exact .inr ⟨p, q, hp, hname, hq, hpq⟩
    kept := hkept.trans hwrite }

/-! ## Releasing and removing -/

/-- The effect of `edgex_device_release`: the last reference frees the device. -/
theorem release_eq_ok {map map' : Devmap} {a : ObjAddr} (h : map.release a = .ok map') :
    ∃ d, map.objects.find? a = some d ∧
      (d.refs = 1 ∧ map' = { map with objects := map.objects.free a } ∨
        d.refs ≠ 1 ∧
          map' = { map with objects := map.objects.write a { d with refs := d.refs - 1 } }) := by
  obtain ⟨d, hd, h⟩ := Checked.bind_eq_ok.mp h
  refine ⟨d, Store.read_eq_ok.mp hd, ?_⟩
  split at h
  · next hrefs =>
    cases h
    exact .inl ⟨hrefs, rfl⟩
  · next hrefs =>
    cases h
    exact .inr ⟨hrefs, rfl⟩

/-- A release leaves both indexes alone. -/
theorem release_indexes {map map' : Devmap} {a : ObjAddr} (h : map.release a = .ok map') :
    map'.devices = map.devices ∧ map'.nameToId = map.nameToId := by
  obtain ⟨d, -, ⟨-, rfl⟩ | ⟨-, rfl⟩⟩ := release_eq_ok h
  · exact ⟨rfl, rfl⟩
  · exact ⟨rfl, rfl⟩

/-- The effect of `remove_locked`: a removal from both maps, then a release. -/
theorem removeLocked_eq_ok {map map' : Devmap} {a : ObjAddr} (h : map.removeLocked a = .ok map') :
    ∃ d, map.objects.find? a = some d ∧
      release { map with
        nameToId := map.nameToId.remove d.name, devices := map.devices.remove d.id } a = .ok map' := by
  obtain ⟨d, hd, h⟩ := Checked.bind_eq_ok.mp h
  exact ⟨d, Store.read_eq_ok.mp hd, h⟩

/-- A removal takes the entries of the device's id and of its name out of the indexes. -/
theorem removeLocked_indexes {map map' : Devmap} {a : ObjAddr} {d : DeviceObject}
    (hd : map.objects.find? a = some d) (hremove : map.removeLocked a = .ok map') :
    map'.devices = map.devices.remove d.id ∧ map'.nameToId = map.nameToId.remove d.name := by
  obtain ⟨d', hd', hrelease⟩ := removeLocked_eq_ok hremove
  obtain rfl : d = d' := Option.some.inj (hd.symm.trans hd')
  exact release_indexes hrelease

/-- A removal takes one device out, and leaves the other objects and the profiles alone. -/
theorem removeLocked_kept {map map' : Devmap} {a : ObjAddr}
    (hremove : map.removeLocked a = .ok map') :
    ∃ d, map.objects.find? a = some d ∧ map'.devices = map.devices.remove d.id ∧
      map'.profileObjects = map.profileObjects ∧
      ∀ b e, b ≠ a → map.objects.find? b = some e → map'.objects.find? b = some e := by
  obtain ⟨d, hd, hrelease⟩ := removeLocked_eq_ok hremove
  refine ⟨d, hd, ?_⟩
  obtain ⟨d', hd', ⟨-, rfl⟩ | ⟨-, rfl⟩⟩ := release_eq_ok hrelease
  · exact ⟨rfl, rfl, fun b e hb he => by rw [Store.find?_free, if_neg hb, he]⟩
  · exact ⟨rfl, rfl, fun b e hb he => by rw [Store.find?_write hd', if_neg hb, he]⟩

/-! ## Updating -/

/-- The effect of `update_in_place`: it compares, and overwrites the device if all is equal. -/
theorem updateInPlace_eq_ok {map map' : Devmap} {a : ObjAddr} {src : Device} {done : Bool}
    (h : map.updateInPlace a src = .ok (done, map')) :
    ∃ d, map.objects.find? a = some d ∧
      (done = false ∧ map' = map ∨
        done = true ∧ (∃ prof p, map.profileObjects.find? d.profile = some prof ∧
          src.profile = some p ∧ inPlace d prof src p = true) ∧
          map' = { map with objects := map.objects.write a (updated d src) }) := by
  obtain ⟨d, hd, h⟩ := Checked.bind_eq_ok.mp h
  refine ⟨d, Store.read_eq_ok.mp hd, ?_⟩
  split at h
  · cases h
    exact .inl ⟨rfl, rfl⟩
  · obtain ⟨prof, hprof, h⟩ := Checked.bind_eq_ok.mp h
    split at h
    · cases h
    · next p hp =>
      split at h
      · next hplace =>
        cases h
        exact .inr ⟨rfl, ⟨prof, p, Store.read_eq_ok.mp hprof, hp, hplace⟩, rfl⟩
      · cases h
        exact .inl ⟨rfl, rfl⟩

/-- The effect of `edgex_devmap_replace_device` before a device is added. -/
theorem replaceOld_eq_ok {map map' : Devmap} {dev : Device} {add : Bool}
    (h : map.replaceOld dev = .ok (add, map')) :
    (add = true ∧ map.devices.get dev.id = none ∧ map' = map) ∨
      ∃ a, map.devices.get dev.id = some a ∧
        ((add = false ∧ map.updateInPlace a dev = .ok (true, map')) ∨
          (add = true ∧ map.updateInPlace a dev = .ok (false, map) ∧
            map.removeLocked a = .ok map')) := by
  unfold replaceOld at h
  split at h
  · next hnone =>
    cases h
    exact .inl ⟨rfl, hnone, rfl⟩
  · next a ha =>
    refine .inr ⟨a, ha, ?_⟩
    obtain ⟨⟨done, m⟩, hupdate, h⟩ := Checked.bind_eq_ok.mp h
    cases done with
    | true =>
      cases h
      exact .inl ⟨rfl, hupdate⟩
    | false =>
      obtain ⟨m', hremove, h⟩ := Checked.bind_eq_ok.mp h
      cases h
      obtain ⟨d, hd, (⟨-, rfl⟩ | ⟨hdone, -⟩)⟩ := updateInPlace_eq_ok hupdate
      · exact .inr ⟨rfl, hupdate, hremove⟩
      · cases hdone

/-! ## Looking up -/

/-- A name leads to what stands under the id that its entry points to. -/
theorem findByname_eq_some {map : Devmap} {n : Text} {a : ObjAddr} :
    map.findByname n = .ok (some a) ↔ ∃ x d, map.nameToId.get n = some x ∧
      map.objects.find? x = some d ∧ map.devices.get d.id = some a := by
  unfold findByname
  cases hn : map.nameToId.get n with
  | none => simp
  | some x =>
    dsimp only
    constructor
    · intro h
      obtain ⟨d, hd, h⟩ := Checked.bind_eq_ok.mp h
      cases hdev : map.devices.get d.id with
      | none =>
        rw [hdev] at h
        cases h
      | some b =>
        rw [hdev] at h
        cases h
        exact ⟨x, d, rfl, Store.read_eq_ok.mp hd, hdev⟩
    · rintro ⟨_, d, ⟨⟩, hd, hdev⟩
      rw [Store.read_eq_ok.mpr hd, Checked.ok_bind, hdev]
      rfl

/-- The effect of the counter going up. -/
theorem retain_eq_ok {map map' : Devmap} {a : ObjAddr} (h : map.retain a = .ok map') :
    ∃ d, map.objects.find? a = some d ∧
      map' = { map with objects := map.objects.write a { d with refs := d.refs + 1 } } := by
  obtain ⟨d, hd, h⟩ := Checked.bind_eq_ok.mp h
  cases h
  exact ⟨d, Store.read_eq_ok.mp hd, rfl⟩

section Lookups

variable {map map' : Devmap} {id name : Text} {res : Option ObjAddr}

/-- A lookup finds nothing, or a device that has one more reference then. -/
theorem deviceByid_eq_ok (h : map.deviceByid id = .ok (res, map')) :
    res = none ∧ map' = map ∨
      ∃ a, res = some a ∧ map.devices.get id = some a ∧ map.retain a = .ok map' := by
  unfold deviceByid at h
  cases hget : map.devices.get id with
  | none =>
    simp only [hget] at h
    cases h
    exact .inl ⟨rfl, rfl⟩
  | some a =>
    simp only [hget] at h
    obtain ⟨m, hretain, h⟩ := Checked.bind_eq_ok.mp h
    cases h
    exact .inr ⟨a, rfl, rfl, hretain⟩

theorem deviceByname_eq_ok (h : map.deviceByname name = .ok (res, map')) :
    res = none ∧ map' = map ∨
      ∃ a, res = some a ∧ map.findByname name = .ok (some a) ∧ map.retain a = .ok map' := by
  obtain ⟨found, hfound, h⟩ := Checked.bind_eq_ok.mp h
  cases found with
  | none =>
    cases h
    exact .inl ⟨rfl, rfl⟩
  | some a =>
    obtain ⟨m, hretain, h⟩ := Checked.bind_eq_ok.mp h
    cases h
    exact .inr ⟨a, rfl, hfound, hretain⟩

/-- A removal by name finds nothing, or removes the device that the name leads to. -/
theorem removedeviceByname_eq_ok (h : map.removedeviceByname name = .ok map') :
    map' = map ∨ ∃ a, map.findByname name = .ok (some a) ∧ map.removeLocked a = .ok map' := by
  obtain ⟨found, hfound, h⟩ := Checked.bind_eq_ok.mp h
  cases found with
  | none =>
    cases h
    exact .inl rfl
  | some a => exact .inr ⟨a, hfound, h⟩

theorem removedeviceByid_eq_ok (h : map.removedeviceByid id = .ok map') :
    ∃ a, map.devices.get id = some a ∧ map.removeLocked a = .ok map' := by
  unfold removedeviceByid at h
  cases hget : map.devices.get id with
  | none =>
    simp only [hget] at h
    cases h
  | some a =>
    simp only [hget] at h
    exact ⟨a, rfl, h⟩

end Lookups

end Devmap

end Zigbee
