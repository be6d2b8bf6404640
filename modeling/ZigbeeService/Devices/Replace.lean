-- SUMMARY: Replacing a device: what lookups show behind it, whether the device was updated in place or taken out and added.
import ZigbeeService.Devices.Reachable

/-!
# Replacing a device

`edgex_devmap_replace_device` updates the device in place when four comparisons find nothing that
would matter to operations in progress, and else takes it out and adds the new record. Whoever looks
the device up must not see the difference.
-/

namespace Zigbee

open CLib

namespace Devmap

-- ---------------------------------------------------------------------------
-- What lookups show
-- ---------------------------------------------------------------------------

/-- A lookup by id gives a device with this record, whose profile has this name. -/
def Shows (map : Devmap) (id : Text) (c : DeviceInfo × Text) : Prop :=
  ∃ a m d prof, map.deviceByid id = .ok (some a, m) ∧ m.objects.find? a = some d ∧
    m.profileObjects.find? d.profile = some prof ∧ c = (d.toDeviceInfo, prof.name)

/-- The record says what the device does, its service apart: protocols are compared as maps,
automatic events as multisets, profiles by their names. -/
structure SameRecord (c : DeviceInfo × Text) (dev : Device) : Prop where
  fields : { c.1 with
    protocols := dev.protocols
    autos := dev.autos
    service := dev.service } = dev.toDeviceInfo
  protocols : SameProtocols c.1.protocols dev.protocols
  autos : c.1.autos.Perm dev.autos
  profile : dev.profile.map DeviceProfile.name = some c.2

/-- The new record stands under its id, and nothing else has changed: neither which devices the
other ids lead to, nor these devices, nor where their names lead. -/
structure Replaces (map : Devmap) (dev : Device) (map' : Devmap) : Prop where
  shows : ∃ c, map'.Shows dev.id c ∧ SameRecord c dev
  ids : ∀ id, id ≠ dev.id → map'.devices.get id = map.devices.get id
  others : ∀ {id b e}, id ≠ dev.id → map.devices.get id = some b →
    map.objects.find? b = some e →
    map'.objects.find? b = some e ∧ map'.nameToId.get e.name = map.nameToId.get e.name
  profiles : ProfilesKept map.profileObjects map'.profileObjects

/-- No device of another id has one of these names. -/
def NamesUnused (map : Devmap) (id : Text) (names : List Text) : Prop :=
  ∀ id' b e, id' ≠ id → map.devices.get id' = some b → map.objects.find? b = some e →
    e.name ∉ names

/-- Records that `update_in_place` finds equal have the same automatic events. -/
def ComparesTruly (map : Devmap) (old : DeviceObject) (dev : Device) : Prop :=
  ∀ prof p, map.profileObjects.find? old.profile = some prof → dev.profile = some p →
    inPlace old prof dev p = true → old.autos.Perm dev.autos

section Lookups

variable {map map' : Devmap} {dev : Device}

theorem Live.shows_iff (h : map.Live) {id : Text} {c : DeviceInfo × Text} :
    map.Shows id c ↔ map.copy id = some c := by
  constructor
  · rintro ⟨a, m, d', prof', hbyid, hd', hprof', rfl⟩
    rcases deviceByid_eq_ok hbyid with ⟨hnone, -⟩ | ⟨b, hb, hget, hretain⟩
    · cases hnone
    · cases hb
      obtain ⟨d, hd, rfl⟩ := retain_eq_ok hretain
      rw [Store.find?_write hd, if_pos rfl] at hd'
      cases hd'
      exact copy_eq_some (d := d) hget hd hprof'
  · intro hcopy
    have hne : map.devices.get id ≠ none := by
      rw [ne_eq, ← h.copy_eq_none_iff, hcopy]
      exact Option.some_ne_none c
    obtain ⟨a, ha⟩ := Option.ne_none_iff_exists'.mp hne
    obtain ⟨d, prof, hd, -, hprof, hsame⟩ := h.copy ha
    obtain ⟨m, hm⟩ : ∃ m, m = { map with
        objects := map.objects.write a { d with refs := d.refs + 1 } } := ⟨_, rfl⟩
    have hretain : map.retain a = .ok m := by
      rw [retain, Store.read_eq_ok.mpr hd, hm]
      rfl
    refine ⟨a, m, { d with refs := d.refs + 1 }, prof, ?_, ?_, by rw [hm]; exact hprof, ?_⟩
    · simp only [deviceByid, ha, hretain, Checked.ok_bind, Checked.pure_eq]
    · rw [hm, Store.find?_write hd, if_pos rfl]
    · exact Option.some.inj (hcopy.symm.trans hsame)

/-- A record that is added, or that was compared truly, is shown. -/
theorem Replaced.sameRecord {old c : DeviceInfo × Text} {p : DeviceProfile}
    (h : Replaced (some old) dev p c) (hp : dev.profile = some p)
    (hnamed : ProtocolsNamed dev.protocols) (hold : ProtocolsNamed old.1.protocols)
    (htrue : old.1.name = dev.name → old.2 = p.name →
      edgexDeviceAutoeventsEqual old.1.autos dev.autos = true →
      edgexProtocolsEqual old.1.protocols dev.protocols = true → old.1.autos.Perm dev.autos) :
    SameRecord c dev := by
  cases h with
  | added =>
    exact {
      fields := rfl
      protocols := sameProtocols_edgexProtocolsDup hnamed
      autos := .refl _
      profile := by rw [hp]; rfl }
  | updated heq hname hid hautos hprotocols =>
    cases heq
    exact {
      fields := by simp only [updatedInfo, hname, hid]
      protocols := sameProtocols_of_edgexProtocolsEqual hold hnamed hprotocols
      autos := htrue hname rfl hautos hprotocols
      profile := by rw [hp]; rfl }

end Lookups

-- ---------------------------------------------------------------------------
-- Both paths
-- ---------------------------------------------------------------------------

section Replacing

variable {map map' : Devmap} {dev : Device} {a : ObjAddr} {old : DeviceObject}

/-- What a replacement leaves alone. -/
structure LeavesOthers (map : Devmap) (dev : Device) (a : ObjAddr) (old : DeviceObject)
    (map' : Devmap) : Prop where
  ids : ∀ id, id ≠ dev.id → map'.devices.get id = map.devices.get id
  objects : ∀ b e, b ≠ a → map.objects.find? b = some e → map'.objects.find? b = some e
  names : ∀ n, n ≠ old.name → n ≠ dev.name → map'.nameToId.get n = map.nameToId.get n
  profiles : ProfilesKept map.profileObjects map'.profileObjects

theorem replaceDevice_leavesOthers (ha : map.devices.get dev.id = some a)
    (hold : map.objects.find? a = some old) (hid : old.id = dev.id)
    (hreplace : map.replaceDevice dev = .ok map') : LeavesOthers map dev a old map' := by
  obtain ⟨⟨add, m⟩, hfirst, hadd⟩ := Checked.bind_eq_ok.mp hreplace
  have hkept := (replaceOld_addsNone hfirst).kept
  rcases replaceOld_eq_ok hfirst with ⟨-, hnone, -⟩ | ⟨b, hb, ⟨rfl, hupdate⟩ | ⟨rfl, -, hremove⟩⟩
  · rw [ha] at hnone
    cases hnone
  · -- in place: one object is written
    cases ha.symm.trans hb
    cases hadd
    obtain ⟨d, hd, ⟨hdone, -⟩ | ⟨-, -, rfl⟩⟩ := updateInPlace_eq_ok hupdate
    · cases hdone
    · refine ⟨fun _ _ => rfl, fun c e hne he => ?_, fun _ _ _ => rfl, hkept⟩
      show (map.objects.write a (updated d dev)).find? c = some e
      rw [Store.find?_write hd, if_neg hne, he]
  · -- taken out and added
    cases ha.symm.trans hb
    obtain ⟨hdevices, hnames⟩ := removeLocked_indexes hold hremove
    obtain ⟨d, hd, -, -, hobjects⟩ := removeLocked_kept hremove
    obtain ⟨pp, hadded⟩ := addLocked_eq_ok hadd
    refine ⟨fun id hne => ?_, fun c e hne he => ?_, fun n hne hne' => ?_, hkept.trans hadded.kept⟩
    · rw [hadded.devices, HashMap.get_set, if_neg hne, hdevices, HashMap.get_remove, hid,
        if_neg hne]
    · rw [hadded.objects]
      exact Store.find?_alloc_of_some (hobjects c e hne he)
    · rw [hadded.nameToId, HashMap.get_set, if_neg hne', hnames, HashMap.get_remove, if_neg hne]

/-- A record without a profile is not got past. -/
theorem profile_of_replaceDevice (hreplace : map.replaceDevice dev = .ok map') :
    ∃ p, dev.profile = some p := by
  obtain ⟨⟨add, m⟩, hfirst, hadd⟩ := Checked.bind_eq_ok.mp hreplace
  cases add with
  | true =>
    obtain ⟨pp, hadded⟩ := addLocked_eq_ok hadd
    obtain ⟨p, -, hp, -⟩ := hadded.profile
    exact ⟨p, hp⟩
  | false =>
    rcases replaceOld_eq_ok hfirst with ⟨hadd, -⟩ | ⟨b, -, ⟨-, hupdate⟩ | ⟨hadd, -⟩⟩
    · cases hadd
    · obtain ⟨d, hd, ⟨hdone, -⟩ | ⟨-, ⟨prof, p, -, hp, -⟩, -⟩⟩ := updateInPlace_eq_ok hupdate
      · cases hdone
      · exact ⟨p, hp⟩
    · cases hadd

/-- A device that compares equal is updated and stays where it is. -/
theorem copy_of_inPlace {prof p : DeviceProfile} (ha : map.devices.get dev.id = some a)
    (hold : map.objects.find? a = some old)
    (hprof : map.profileObjects.find? old.profile = some prof) (hp : dev.profile = some p)
    (hplace : inPlace old prof dev p = true) (hreplace : map.replaceDevice dev = .ok map') :
    map'.copy dev.id = some (updatedInfo old.toDeviceInfo dev, prof.name) := by
  have hname : ¬ old.name ≠ dev.name := not_not_intro (of_decide_eq_true hplace).1
  have hupdate : map.updateInPlace a dev =
      .ok (true, { map with objects := map.objects.write a (updated old dev) }) := by
    rw [updateInPlace, Store.read_eq_ok.mpr hold, Checked.ok_bind, if_neg hname,
      Store.read_eq_ok.mpr hprof, Checked.ok_bind, hp]
    exact if_pos hplace
  have hdone : map.replaceDevice dev =
      .ok { map with objects := map.objects.write a (updated old dev) } := by
    simp only [replaceDevice, replaceOld, ha, hupdate, Checked.ok_bind, Checked.pure_eq, if_true,
      Bool.false_eq_true, if_false]
  cases hdone.symm.trans hreplace
  refine copy_eq_some (d := updated old dev) ha ?_ hprof
  rw [Store.find?_write hold, if_pos rfl]

/-- After a replacement the new record is shown, exactly when records that compare equal have the
same automatic events. -/
theorem Live.replaces_iff {P : DeviceProfile → Prop} (h : map.Live)
    (hregistered : map.Registered P) (hnamed : ProtocolsNamed dev.protocols)
    (ha : map.devices.get dev.id = some a) (hold : map.objects.find? a = some old)
    (holdNamed : ProtocolsNamed old.protocols)
    (hunused : map.NamesUnused dev.id [old.name, dev.name])
    (hreplace : map.replaceDevice dev = .ok map') :
    map.Replaces dev map' ↔ map.ComparesTruly old dev := by
  obtain ⟨p, hp⟩ := profile_of_replaceDevice hreplace
  obtain ⟨d, prof, hd, hid, hprof, hcopy⟩ := h.copy ha
  obtain rfl : old = d := Option.some.inj (hold.symm.trans hd)
  have hothers := replaceDevice_leavesOthers ha hold hid hreplace
  obtain ⟨-, c, hc, hreplaced⟩ := h.copy_replaceDevice hregistered hp hreplace
  rw [hcopy] at hreplaced
  have hmap' := h.replaceDevice hreplace
  constructor
  · intro hreplaces prof' p' hprof' hp' hplace
    obtain rfl : prof = prof' := Option.some.inj (hprof.symm.trans hprof')
    obtain rfl : p = p' := Option.some.inj (hp.symm.trans hp')
    -- all compared equal, so the automatic events of the old record are still shown
    obtain ⟨c', hshows, hsame⟩ := hreplaces.shows
    have hstays := copy_of_inPlace ha hold hprof hp hplace hreplace
    cases (hmap'.shows_iff.mp hshows).symm.trans hstays
    exact hsame.autos
  · intro htrue
    have hsame : SameRecord c dev := by
      refine hreplaced.sameRecord hp hnamed holdNamed fun hname hprofile hautos hprotocols => ?_
      exact htrue prof p hprof hp (decide_eq_true ⟨hname, hprofile, hautos, hprotocols⟩)
    refine ⟨⟨c, hmap'.shows_iff.mpr hc, hsame⟩, hothers.ids, fun {id b e} hne hb he => ?_,
      hothers.profiles⟩
    have hba : b ≠ a := by
      rintro rfl
      cases hold.symm.trans he
      obtain ⟨e', -, he', hid', -⟩ := h.device hb
      cases hold.symm.trans he'
      exact hne (hid'.symm.trans hid)
    have hname := hunused id b e hne hb he
    rw [List.mem_cons, List.mem_singleton, not_or] at hname
    exact ⟨hothers.objects b e hba he, hothers.names e.name hname.1 hname.2⟩

end Replacing

-- ---------------------------------------------------------------------------
-- Any map that the threads reach
-- ---------------------------------------------------------------------------

/-- Replacing a device shows the new record on both paths, exactly when records that compare equal
have the same automatic events; and it returns when all devices are complete. -/
theorem replaceDevice_replaces_iff {as : List Action} {s : Threads} {dev : Device} {a : ObjAddr}
    {old : DeviceObject}
    (hrun : Machine.run (Machine.checked threadsStep) (.ok .init) as = some (.ok s))
    (hidle : s.phase = .reading []) (hnamed : ProtocolsNamed dev.protocols)
    (ha : s.map.devices.get dev.id = some a) (hold : s.map.objects.find? a = some old)
    (holdNamed : ProtocolsNamed old.protocols)
    (hunused : s.map.NamesUnused dev.id [old.name, dev.name]) :
    ((∀ x ∈ as, ∀ d ∈ x.devices, d.Complete) → dev.Complete →
      ∃ map', s.map.replaceDevice dev = .ok map') ∧
      ∀ map', s.map.replaceDevice dev = .ok map' →
        (s.map.Replaces dev map' ↔ s.map.ComparesTruly old dev) := by
  refine ⟨fun has hdev => ?_, fun map' hreplace => ?_⟩
  · obtain ⟨map', hreplace, -⟩ := (Threads.held_of_run hrun hidle has).replaceComplete_ok hdev
    exact ⟨map', hreplace⟩
  · obtain ⟨hlive, hregistered⟩ := Threads.live_of_run hrun hidle
    exact hlive.replaces_iff hregistered hnamed ha hold holdNamed hunused hreplace

/-! ### A metered plug -/

/-- A plug whose power is read with these frequencies. -/
def meteredPlug (frequencies : List Text) : Device :=
  { plug (lit "1") (lit "Plug") with
    autos := frequencies.map fun frequency => ⟨lit "Power", frequency, false⟩ }

/-- The plug is added. -/
def meteredCalls (frequencies : List Text) : List Action :=
  [.wrlock (.replace (meteredPlug frequencies)), .write, .write, .write]

/-- The map behind them. -/
theorem meteredCalls_map (frequencies : List Text) {s : Threads}
    (hentries : s.map.devices.entries = [(lit "1", 0)]) (names : List Text) :
    s.map.devices.get (meteredPlug frequencies).id = some 0 ∧
      s.map.NamesUnused (meteredPlug frequencies).id names := by
  constructor
  · refine HashMap.mem_entries.mp ?_
    rw [hentries]
    exact List.mem_cons_self
  · intro id b e hne hb _ _
    have hmem := HashMap.mem_entries.mpr hb
    rw [hentries, List.mem_singleton, Prod.mk.injEq] at hmem
    exact hne hmem.1

/-- The frequency of an event is changed. -/
theorem replaceDevice_oneFrequency :
    ∃ (s : Threads) (map' : Devmap),
      s.map.replaceDevice (meteredPlug [lit "5s"]) = .ok map' ∧
      s.map.Replaces (meteredPlug [lit "5s"]) map' := by
  obtain ⟨s, hs⟩ := Machine.exists_ok (r := Machine.run (Machine.checked threadsStep) (.ok .init)
    (meteredCalls [lit "1s"])) (by decide +kernel)
  obtain ⟨hidle, hentries, old, hold, hautos, hprotocols⟩ : s.phase = .reading [] ∧
      s.map.devices.entries = [(lit "1", 0)] ∧ ∃ old, s.map.objects.find? 0 = some old ∧
        old.autos = (meteredPlug [lit "1s"]).autos ∧ old.protocols = [] := by
    cases hs
    exact ⟨rfl, rfl, _, rfl, rfl, rfl⟩
  obtain ⟨ha, hunused⟩ := meteredCalls_map [lit "5s"] hentries
    [old.name, (meteredPlug [lit "5s"]).name]
  have hcomplete (frequencies : List Text) : (meteredPlug frequencies).Complete :=
    ⟨⟨_, rfl⟩, _, rfl, by unfold DeviceProfile.OpsNamed; decide⟩
  obtain ⟨hreturns, hiff⟩ := replaceDevice_replaces_iff hs hidle protocolsNamed_nil ha hold
    (by rw [hprotocols]; exact protocolsNamed_nil) hunused
  obtain ⟨map', hreplace⟩ := hreturns (by
    simp [meteredCalls, Action.devices, Call.devices, hcomplete]) (hcomplete _)
  refine ⟨s, map', hreplace, (hiff map' hreplace).mpr ?_⟩
  -- the comparison of the events fails
  intro prof p _ _ hplace
  have hequal := (of_decide_eq_true hplace).2.2.1
  rw [hautos] at hequal
  cases hequal

/-- The first of two events for one resource stands for both: the new frequency is lost. -/
theorem replaceDevice_twoFrequencies :
    ∃ (s : Threads) (map' : Devmap), Machine.run (Machine.checked threadsStep) (.ok .init)
        (meteredCalls [lit "1s", lit "1s"]) = some (.ok s) ∧ s.phase = .reading [] ∧
      s.map.replaceDevice (meteredPlug [lit "1s", lit "5s"]) = .ok map' ∧
      ¬ s.map.Replaces (meteredPlug [lit "1s", lit "5s"]) map' := by
  obtain ⟨s, hs⟩ := Machine.exists_ok (r := Machine.run (Machine.checked threadsStep) (.ok .init)
    (meteredCalls [lit "1s", lit "1s"])) (by decide +kernel)
  obtain ⟨hidle, map', hreplace, hshown⟩ : s.phase = .reading [] ∧
      ∃ map', s.map.replaceDevice (meteredPlug [lit "1s", lit "5s"]) = .ok map' ∧
        (map'.copy (lit "1")).map (fun c => c.1.autos) =
          some (meteredPlug [lit "1s", lit "1s"]).autos := by
    cases hs
    exact ⟨rfl, _, rfl, rfl⟩
  refine ⟨s, map', hs, hidle, hreplace, fun hreplaces => ?_⟩
  obtain ⟨c, hc, hsame⟩ := hreplaces.shows
  have hlive := (Threads.live_of_run hs hidle).1.replaceDevice hreplace
  have hcopy : map'.copy (lit "1") = some c := hlive.shows_iff.mp hc
  rw [hcopy, Option.map_some, Option.some_inj] at hshown
  have hperm := hsame.autos
  rw [hshown] at hperm
  revert hperm
  decide

end Devmap

end Zigbee
