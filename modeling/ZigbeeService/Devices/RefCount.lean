-- SUMMARY: The reference counts of devices are exact in every interleaving of the device map's threads.
import ZigbeeService.Lib.RefCount
import ZigbeeService.Devices.Threads

/-!
# Reference counts of devices

The map owes one reference to each device it holds, each borrower one for every time it was given
the device. Between two steps every device counts exactly these.
-/

namespace Zigbee

open CLib

namespace Devmap

/-! ## The references to a device -/

/-- The map holds the device. -/
def InMap (map : Devmap) (a : ObjAddr) : Prop := ∃ id, map.devices.get id = some a

open Classical in
/-- The references to a device: one from the map if it holds it, and those that are borrowed. -/
noncomputable def owed (map : Devmap) (borrows : List ObjAddr) (a : ObjAddr) : Nat :=
  (if map.InMap a then 1 else 0) + borrows.count a

/-- The counts are exact, and the maps lead to live objects. -/
structure Counted (map : Devmap) (borrows : List ObjAddr) : Prop where
  exact : RefsExact DeviceObject.refs map.objects (map.owed borrows)
  device : ∀ {id a}, map.devices.get id = some a →
    ∃ d, map.objects.find? a = some d ∧ d.id = id
  profile : ∀ {a d}, map.objects.find? a = some d →
    ∃ prof, map.profileObjects.find? d.profile = some prof
  registered : ∀ {n pp}, map.profiles.get n = some pp →
    ∃ prof, map.profileObjects.find? pp = some prof

/-- A name leads to the device in the map that has it. -/
def NamesLead (map : Devmap) : Prop :=
  ∀ n a, map.nameToId.get n = some a →
    ∃ d, map.objects.find? a = some d ∧ d.name = n ∧ map.devices.get d.id = some a

section Primitives

variable {map map' : Devmap} {borrows : List ObjAddr} {a : ObjAddr} {d : DeviceObject}

theorem owed_of_inMap (h : map.InMap a) : map.owed borrows a = 1 + borrows.count a := by
  rw [owed, if_pos h]

theorem owed_of_not_inMap (h : ¬ map.InMap a) : map.owed borrows a = borrows.count a := by
  rw [owed, if_neg h, Nat.zero_add]

theorem owed_congr {borrows' : List ObjAddr} (hmap : map'.InMap a ↔ map.InMap a)
    (hcount : borrows'.count a = borrows.count a) : map'.owed borrows' a = map.owed borrows a := by
  by_cases hin : map.InMap a
  · rw [owed_of_inMap hin, owed_of_inMap (hmap.mpr hin), hcount]
  · rw [owed_of_not_inMap hin, owed_of_not_inMap fun h => hin (hmap.mp h), hcount]

/-- A device that the map holds is found under its own id. -/
theorem Counted.inMap (h : map.Counted borrows) (hin : map.InMap a) :
    ∃ d, map.objects.find? a = some d ∧ map.devices.get d.id = some a := by
  obtain ⟨id, hid⟩ := hin
  obtain ⟨d, hd, rfl⟩ := h.device hid
  exact ⟨d, hd, hid⟩

/-- A borrowed device lives. -/
theorem Counted.borrowed (h : map.Counted borrows) (ha : a ∈ borrows) :
    ∃ d, map.objects.find? a = some d :=
  h.exact.live (Nat.lt_of_lt_of_le (List.count_pos_iff.mpr ha) (Nat.le_add_left _ _))

/-- A change of one object that keeps its id and its profile. -/
theorem Counted.write {d' : DeviceObject} {borrows' : List ObjAddr} (h : map.Counted borrows)
    (hd : map.objects.find? a = some d) (hid : d'.id = d.id) (hprofile : d'.profile = d.profile)
    (hrefs : d'.refs = map.owed borrows' a ∧ 0 < map.owed borrows' a)
    (hcount : ∀ b, b ≠ a → borrows'.count b = borrows.count b) :
    Counted { map with objects := map.objects.write a d' } borrows' where
  exact := h.exact.write hd hrefs fun b hb => owed_congr Iff.rfl (hcount b hb)
  device := by
    intro id b hb
    obtain ⟨e, he, heid⟩ := h.device hb
    rw [Store.find?_write hd]
    split
    · next heq =>
      subst heq
      rw [hd] at he
      cases he
      exact ⟨d', rfl, hid.trans heid⟩
    · exact ⟨e, he, heid⟩
  profile := by
    intro b e he
    rw [Store.find?_write hd] at he
    split at he
    · cases he
      rw [hprofile]
      exact h.profile hd
    · exact h.profile he
  registered := h.registered

theorem Counted.retain (h : map.Counted borrows) (hretain : map.retain a = .ok map') :
    map'.Counted (a :: borrows) := by
  obtain ⟨d, hd, rfl⟩ := retain_eq_ok hretain
  have hcount := (h.exact.count hd).1
  refine h.write hd rfl rfl ?_ fun b hb => List.count_cons_of_ne hb.symm
  have howed : map.owed (a :: borrows) a = map.owed borrows a + 1 := by
    rw [owed, owed, List.count_cons_self, Nat.add_assoc]
  rw [howed]
  exact ⟨congrArg (· + 1) hcount, Nat.succ_pos _⟩

/-- Giving a borrowed reference back: the last one frees the device. -/
theorem Counted.release (h : map.Counted borrows) (ha : a ∈ borrows)
    (hrelease : map.release a = .ok map') : map'.Counted (borrows.erase a) := by
  obtain ⟨d, hd, hcases⟩ := release_eq_ok hrelease
  have hcount := (h.exact.count hd).1
  have hpos := List.count_pos_iff.mpr ha
  have howed : map.owed (borrows.erase a) a = d.refs - 1 := by
    rw [hcount, owed, owed, List.count_erase_self]
    omega
  have hother : ∀ b, b ≠ a → (borrows.erase a).count b = borrows.count b :=
    fun b hb => List.count_erase_of_ne hb
  rcases hcases with ⟨hone, rfl⟩ | ⟨hne, rfl⟩
  · -- the last reference is the borrower's, so the map has none
    have hnot : ¬ map.InMap a := by
      intro hin
      rw [owed_of_inMap hin] at hcount
      omega
    exact {
      exact := by
        refine h.exact.free ?_ fun b hb => owed_congr Iff.rfl (hother b hb)
        show map.owed (borrows.erase a) a = 0
        rw [howed, hone]
      device := by
        intro id b hb
        obtain ⟨e, he, hid⟩ := h.device hb
        have hba : b ≠ a := by
          rintro rfl
          exact hnot ⟨id, hb⟩
        exact ⟨e, by rw [Store.find?_free, if_neg hba, he], hid⟩
      profile := by
        intro b e he
        rw [Store.find?_free] at he
        split at he
        · cases he
        · exact h.profile he
      registered := h.registered }
  · refine h.write hd rfl rfl ?_ hother
    have hrefs := (h.exact.count hd).2
    rw [howed]
    exact ⟨rfl, by omega⟩

/-- Taking a device out of the map hands the map's reference over to whoever takes it out. -/
theorem Counted.handOver {devices : EdgexMap ObjAddr} (h : map.Counted borrows)
    (names : EdgexMap ObjAddr) (hid : map.devices.get d.id = some a)
    (hd : map.objects.find? a = some d)
    (hdevices : ∀ id, devices.get id = if id = d.id then none else map.devices.get id) :
    Counted { map with nameToId := names, devices := devices } (a :: borrows) := by
  -- an object stands under its own id only
  have hown {id : Text} (hb : map.devices.get id = some a) : id = d.id := by
    obtain ⟨e, he, rfl⟩ := h.device hb
    rw [hd] at he
    cases he
    rfl
  have hinMap (b : ObjAddr) :
      InMap { map with nameToId := names, devices := devices } b ↔ map.InMap b ∧ b ≠ a := by
    unfold InMap
    simp only [hdevices]
    constructor
    · rintro ⟨id, hb⟩
      split at hb
      · cases hb
      · next hne =>
        refine ⟨⟨id, hb⟩, ?_⟩
        rintro rfl
        exact hne (hown hb)
    · rintro ⟨⟨id, hb⟩, hne⟩
      refine ⟨id, ?_⟩
      rw [if_neg, hb]
      rintro rfl
      rw [hid] at hb
      cases hb
      exact hne rfl
  exact {
    exact := by
      refine h.exact.congr fun b => ?_
      by_cases hb : b = a
      · subst hb
        rw [owed_of_inMap ⟨d.id, hid⟩, owed_of_not_inMap fun hin => ((hinMap b).mp hin).2 rfl,
          List.count_cons_self, Nat.add_comm]
      · exact owed_congr ((hinMap b).trans (and_iff_left hb)) (List.count_cons_of_ne (Ne.symm hb))
    device := by
      intro id b hb
      rw [hdevices] at hb
      split at hb
      · cases hb
      · exact h.device hb
    profile := h.profile
    registered := h.registered }

/-- A release does not look at the maps. -/
theorem release_maps (map : Devmap) (names devices : EdgexMap ObjAddr) (a : ObjAddr) :
    release { map with nameToId := names, devices := devices } a =
      (map.release a).map fun m => { m with nameToId := names, devices := devices } := by
  unfold release
  cases map.objects.read a with
  | error e => rfl
  | ok d =>
    simp only [Checked.ok_bind]
    split <;> rfl

/-- Releasing the map's reference to a device and taking the device out, as the rounds of
`edgex_devmap_clear` do. -/
theorem Counted.drop {names devices : EdgexMap ObjAddr} (h : map.Counted borrows)
    (hid : map.devices.get d.id = some a) (hd : map.objects.find? a = some d)
    (hdevices : ∀ id, devices.get id = if id = d.id then none else map.devices.get id)
    (hrelease : map.release a = .ok map') :
    Counted { map' with nameToId := names, devices := devices } borrows := by
  have hout : Devmap.release { map with nameToId := names, devices := devices } a =
      .ok { map' with nameToId := names, devices := devices } := by
    rw [release_maps, hrelease]
    rfl
  have hdropped := (h.handOver names hid hd hdevices).release List.mem_cons_self hout
  rwa [List.erase_cons_head] at hdropped

/-- Adding a device under a free id. -/
theorem Counted.addLocked {dev : Device} (h : map.Counted borrows)
    (hid : map.devices.get dev.id = none) (hadd : map.addLocked dev = .ok map') :
    map'.Counted borrows := by
  obtain ⟨pp, hadded⟩ := addLocked_eq_ok hadd
  -- nobody has borrowed the address that the new object gets
  have hnew : borrows.count map.objects.size = 0 := by
    rw [List.count_eq_zero]
    intro hmem
    obtain ⟨d, hd⟩ := h.borrowed hmem
    rw [Store.find?_size] at hd
    cases hd
  have hin (b : ObjAddr) : map'.InMap b ↔ b = map.objects.size ∨ map.InMap b := by
    unfold InMap
    simp only [hadded.devices, HashMap.get_set]
    constructor
    · rintro ⟨id, hb⟩
      split at hb
      · cases hb
        exact .inl rfl
      · exact .inr ⟨id, hb⟩
    · rintro (rfl | ⟨id, hb⟩)
      · exact ⟨dev.id, if_pos rfl⟩
      · refine ⟨id, ?_⟩
        rw [if_neg, hb]
        rintro rfl
        rw [hid] at hb
        cases hb
  have hold {b : ObjAddr} {e : DeviceObject} (he : map.objects.find? b = some e) :
      map'.objects.find? b = some e := by
    rw [hadded.objects]
    exact Store.find?_alloc_of_some he
  exact {
    exact := by
      rw [hadded.objects]
      refine h.exact.alloc rfl ?_
      intro b
      split
      · next hb => rw [owed_of_inMap ((hin b).mpr (.inl hb)), hb, hnew]
      · next hb => exact owed_congr ((hin b).trans (or_iff_right hb)) rfl
    device := by
      intro id b hb
      rw [hadded.devices, HashMap.get_set] at hb
      split at hb
      · next hnewId =>
        cases hb
        refine ⟨{ copiedInfo dev with profile := pp, refs := 1 }, ?_, hnewId.symm⟩
        rw [hadded.objects, Store.find?_alloc, if_pos rfl]
      · obtain ⟨e, he, heid⟩ := h.device hb
        exact ⟨e, hold he, heid⟩
    profile := by
      intro b e he
      rw [hadded.objects, Store.find?_alloc] at he
      split at he
      · cases he
        obtain ⟨p, prof, -, -, hprof⟩ := hadded.profile
        exact ⟨prof, hprof⟩
      · obtain ⟨prof, hprof⟩ := h.profile he
        obtain ⟨prof', hprof', -⟩ := hadded.kept hprof
        exact ⟨prof', hprof'⟩
    registered := by
      intro n b hb
      rcases hadded.registered n b hb with hpp | ⟨p, prof, -, -, hprof, -⟩
      · obtain ⟨prof, hprof⟩ := h.registered hpp
        obtain ⟨prof', hprof', -⟩ := hadded.kept hprof
        exact ⟨prof', hprof'⟩
      · exact ⟨prof, hprof⟩ }

/-- Profiles may get their tables. -/
theorem Counted.profileObjects {st : Store DeviceProfile} (h : map.Counted borrows)
    (hkept : ProfilesKept map.profileObjects st) :
    Counted { map with profileObjects := st } borrows where
  exact := h.exact
  device := h.device
  profile hd := by
    obtain ⟨prof, hprof⟩ := h.profile hd
    obtain ⟨prof', hprof', -⟩ := hkept hprof
    exact ⟨prof', hprof'⟩
  registered hn := by
    obtain ⟨prof, hprof⟩ := h.registered hn
    obtain ⟨prof', hprof', -⟩ := hkept hprof
    exact ⟨prof', hprof'⟩

/-! ## The names -/

theorem NamesLead.write {d' : DeviceObject} (h : map.NamesLead) (hd : map.objects.find? a = some d)
    (hid : d'.id = d.id) (hname : d'.name = d.name) :
    NamesLead { map with objects := map.objects.write a d' } := by
  intro n b hb
  obtain ⟨e, he, hen, hdev⟩ := h n b hb
  rw [Store.find?_write hd]
  split
  · next heq =>
    subst heq
    rw [hd] at he
    cases he
    exact ⟨d', rfl, hname.trans hen, by rw [hid]; exact hdev⟩
  · exact ⟨e, he, hen, hdev⟩

theorem NamesLead.retain (h : map.NamesLead) (hretain : map.retain a = .ok map') :
    map'.NamesLead := by
  obtain ⟨d, hd, rfl⟩ := retain_eq_ok hretain
  exact h.write hd rfl rfl

/-- A borrower's release only frees a device that no name leads to. -/
theorem NamesLead.release (h : map.NamesLead) (hcounted : map.Counted borrows) (ha : a ∈ borrows)
    (hrelease : map.release a = .ok map') : map'.NamesLead := by
  obtain ⟨d, hd, ⟨hone, rfl⟩ | ⟨-, rfl⟩⟩ := release_eq_ok hrelease
  · intro n b hb
    obtain ⟨e, he, hen, hdev⟩ := h n b hb
    refine ⟨e, ?_, hen, hdev⟩
    rw [Store.find?_free, if_neg, he]
    rintro rfl
    have hcount := (hcounted.exact.count hd).1
    rw [owed_of_inMap ⟨e.id, hdev⟩, hone] at hcount
    have hpos := List.count_pos_iff.mpr ha
    omega
  · exact h.write hd rfl rfl

theorem NamesLead.addLocked {dev : Device} (h : map.NamesLead)
    (hid : map.devices.get dev.id = none) (hadd : map.addLocked dev = .ok map') :
    map'.NamesLead := by
  obtain ⟨pp, hadded⟩ := addLocked_eq_ok hadd
  intro n b hb
  rw [hadded.nameToId, HashMap.get_set] at hb
  rw [hadded.objects, hadded.devices]
  split at hb
  · next hn =>
    cases hb
    rw [Store.find?_alloc, if_pos rfl]
    refine ⟨_, rfl, hn.symm, ?_⟩
    rw [HashMap.get_set]
    exact if_pos rfl
  · obtain ⟨e, he, hen, hdev⟩ := h n b hb
    refine ⟨e, Store.find?_alloc_of_some he, hen, ?_⟩
    rw [HashMap.get_set, if_neg, hdev]
    intro heq
    rw [heq, hid] at hdev
    cases hdev

/-- What the operations on the map rely on. -/
structure Sound (map : Devmap) (borrows : List ObjAddr) : Prop where
  counted : map.Counted borrows
  names : map.NamesLead

/-- A name that is not that of the device that goes leads where it led. -/
theorem NamesLead.handOver (h : map.NamesLead) (hid : map.devices.get d.id = some a)
    (hd : map.objects.find? a = some d) :
    NamesLead { map with
      nameToId := map.nameToId.remove d.name, devices := map.devices.remove d.id } := by
  intro n b hb
  rw [HashMap.get_remove] at hb
  split at hb
  · cases hb
  · next hn =>
    obtain ⟨e, he, hen, hdev⟩ := h n b hb
    refine ⟨e, he, hen, ?_⟩
    rw [HashMap.get_remove, if_neg, hdev]
    -- two devices under one id are one, and that one goes with its name
    intro heq
    rw [heq, hid] at hdev
    cases hdev
    rw [hd] at he
    cases he
    exact hn hen.symm

/-- Removing a device that is in the map. -/
theorem Sound.removeLocked (h : map.Sound borrows) (ha : map.InMap a)
    (hremove : map.removeLocked a = .ok map') : map'.Sound borrows := by
  obtain ⟨d, hd, hid⟩ := h.counted.inMap ha
  obtain ⟨d', hd', hrelease⟩ := removeLocked_eq_ok hremove
  obtain rfl : d = d' := Option.some.inj (hd.symm.trans hd')
  have hcounted := h.counted.handOver (map.nameToId.remove d.name) hid hd (HashMap.get_remove _ _)
  have hnames := (h.names.handOver hid hd).release hcounted List.mem_cons_self hrelease
  have hdropped := hcounted.release List.mem_cons_self hrelease
  rw [List.erase_cons_head] at hdropped
  exact ⟨hdropped, hnames⟩

theorem Sound.updateInPlace {src : Device} {done : Bool} (h : map.Sound borrows)
    (hupdate : map.updateInPlace a src = .ok (done, map')) :
    map'.Sound borrows ∧ map'.devices = map.devices := by
  obtain ⟨d, hd, ⟨-, rfl⟩ | ⟨-, -, rfl⟩⟩ := updateInPlace_eq_ok hupdate
  · exact ⟨h, rfl⟩
  · have hrefs := h.counted.exact.count hd
    exact ⟨⟨h.counted.write hd rfl rfl hrefs fun _ _ => rfl, h.names.write hd rfl rfl⟩, rfl⟩

/-- Behind the first part of `edgex_devmap_replace_device` the id is free, if a device is to be
added. -/
theorem Sound.replaceOld {dev : Device} {add : Bool} (h : map.Sound borrows)
    (hold : map.replaceOld dev = .ok (add, map')) :
    map'.Sound borrows ∧ (add = true → map'.devices.get dev.id = none) := by
  rcases replaceOld_eq_ok hold with ⟨rfl, hnone, rfl⟩ | ⟨a, ha, ⟨rfl, hupdate⟩ | ⟨rfl, -, hremove⟩⟩
  · exact ⟨h, fun _ => hnone⟩
  · exact ⟨(h.updateInPlace hupdate).1, fun hadd => nomatch hadd⟩
  · obtain ⟨d, hd, hdevices, -, -⟩ := removeLocked_kept hremove
    obtain ⟨d', hd', hid⟩ := h.counted.device ha
    obtain rfl : d = d' := Option.some.inj (hd.symm.trans hd')
    refine ⟨h.removeLocked ⟨dev.id, ha⟩ hremove, fun _ => ?_⟩
    rw [hdevices, HashMap.get_remove, if_pos hid.symm]

theorem Sound.addLocked {dev : Device} (h : map.Sound borrows)
    (hid : map.devices.get dev.id = none) (hadd : map.addLocked dev = .ok map') :
    map'.Sound borrows :=
  ⟨h.counted.addLocked hid hadd, h.names.addLocked hid hadd⟩

/-- One round of populating: other ids stay free. -/
theorem Sound.populateDevice {dev : Device} (h : map.Sound borrows)
    (hid : map.devices.get dev.id = none) (hpop : map.populateDevice dev = .ok map') :
    map'.Sound borrows ∧ ∀ id, id ≠ dev.id → map.devices.get id = none →
      map'.devices.get id = none := by
  unfold Devmap.populateDevice at hpop
  split at hpop
  · cases hpop
    exact ⟨h, fun _ _ hnone => hnone⟩
  · obtain ⟨pp, hadded⟩ := addLocked_eq_ok hpop
    refine ⟨h.addLocked hid hpop, ?_⟩
    intro id hne hnone
    rw [hadded.devices, HashMap.get_set, if_neg hne, hnone]

/-- A name leads to a device in the map. -/
theorem Sound.findByname (h : map.Sound borrows) {n : Text} {r : Option ObjAddr}
    (hfind : map.findByname n = .ok r) : ∀ b ∈ r, map.InMap b := by
  unfold Devmap.findByname at hfind
  split at hfind
  · cases hfind
    intro b hb
    cases hb
  · next c hc =>
    obtain ⟨d, hd, -, hdev⟩ := h.names n c hc
    rw [Store.read_eq_ok.mpr hd, Checked.ok_bind, hdev] at hfind
    cases hfind
    intro b hb
    cases hb
    exact ⟨d.id, hdev⟩

theorem Sound.retain (h : map.Sound borrows) (hretain : map.retain a = .ok map') :
    map'.Sound (a :: borrows) :=
  ⟨h.counted.retain hretain, h.names.retain hretain⟩

theorem Sound.profileObjects {st : Store DeviceProfile} (h : map.Sound borrows)
    (hkept : ProfilesKept map.profileObjects st) :
    Sound { map with profileObjects := st } borrows :=
  ⟨h.counted.profileObjects hkept, h.names⟩

/-! ## What is freed stays freed -/

theorem release_ages (h : map.release a = .ok map') : map.objects.Ages map'.objects := by
  obtain ⟨d, hd, ⟨-, rfl⟩ | ⟨-, rfl⟩⟩ := release_eq_ok h
  · exact .free _ _
  · exact .write hd

theorem retain_ages (h : map.retain a = .ok map') : map.objects.Ages map'.objects := by
  obtain ⟨d, hd, rfl⟩ := retain_eq_ok h
  exact .write hd

theorem removeLocked_ages (h : map.removeLocked a = .ok map') :
    map.objects.Ages map'.objects := by
  obtain ⟨d, -, hrelease⟩ := removeLocked_eq_ok h
  have hages := release_ages hrelease
  exact hages

theorem addLocked_ages {dev : Device} (h : map.addLocked dev = .ok map') :
    map.objects.Ages map'.objects := by
  obtain ⟨pp, hadded⟩ := addLocked_eq_ok h
  rw [hadded.objects]
  exact .alloc _ _

theorem populateDevice_ages {dev : Device} (h : map.populateDevice dev = .ok map') :
    map.objects.Ages map'.objects := by
  unfold Devmap.populateDevice at h
  split at h
  · cases h
    exact .refl _
  · exact addLocked_ages h

theorem replaceOld_ages {dev : Device} {add : Bool} (h : map.replaceOld dev = .ok (add, map')) :
    map.objects.Ages map'.objects := by
  rcases replaceOld_eq_ok h with ⟨-, -, rfl⟩ | ⟨a, -, ⟨-, hupdate⟩ | ⟨-, -, hremove⟩⟩
  · exact .refl _
  · obtain ⟨d, hd, ⟨-, rfl⟩ | ⟨-, -, rfl⟩⟩ := updateInPlace_eq_ok hupdate
    · exact .refl _
    · exact .write hd
  · exact removeLocked_ages hremove

end Primitives

/-! ## The steps of the calls -/

section Steps

variable {map map' : Devmap} {borrows : List ObjAddr}

/-- A walk over the devices has only devices of the map before it. -/
def Reader.Walks (map : Devmap) : Reader → Prop
  | .forcmd _ _ iter _ => ∀ p ∈ map.devices.remaining iter, p ∈ map.devices.entries
  | _ => True

theorem Query.start_walks (q : Query) (map : Devmap) : q.start.Walks map := by
  cases q with
  | byid id => trivial
  | byname name => trivial
  | forcmd cmd forGet =>
    intro p hp
    rw [HashMap.remaining_iter] at hp
    exact hp

theorem Reader.Walks.congr {r : Reader} (h : r.Walks map) (hdevices : map'.devices = map.devices) :
    r.Walks map' := by
  cases r with
  | forcmd cmd forGet iter result =>
    intro p hp
    rw [hdevices] at hp ⊢
    exact h p hp
  | _ => trivial

theorem findCommand_eq_ok {cmd : Text} {forGet : Bool} {dev : ObjAddr} {command : Option CmdInfo}
    (h : map.findCommand cmd forGet dev = .ok (command, map')) :
    ∃ st, ProfilesKept map.profileObjects st ∧ map' = { map with profileObjects := st } := by
  obtain ⟨d, -, h⟩ := Checked.bind_eq_ok.mp h
  split at h
  · obtain ⟨prof, hprof, h⟩ := Checked.bind_eq_ok.mp h
    obtain ⟨⟨info, prof'⟩, hfind, h⟩ := Checked.bind_eq_ok.mp h
    cases h
    exact ⟨_, .write (Store.read_eq_ok.mp hprof) (findcommand_sameProfile hfind), rfl⟩
  · cases h
    exact ⟨_, .refl _, rfl⟩

/-- A round of `edgex_devmap_device_forcmd` takes a reference to what it puts in the queue. -/
theorem Sound.forcmdRound {cmd : Text} {forGet : Bool} {iter : Iter}
    {r : Option (Iter × Option (ObjAddr × CmdInfo))} (h : map.Sound borrows)
    (hwalks : ∀ p ∈ map.devices.remaining iter, p ∈ map.devices.entries)
    (hround : map.forcmdRound cmd forGet iter = .ok (r, map')) :
    map'.devices = map.devices ∧ map.objects.Ages map'.objects ∧
      (r = none ∧ map'.Sound borrows ∨
        ∃ iter' q, r = some (iter', q) ∧ map'.Sound ((q.map Prod.fst).toList ++ borrows) ∧
          ∀ p ∈ map.devices.remaining iter', p ∈ map.devices.entries) := by
  unfold Devmap.forcmdRound at hround
  rcases HashMap.next_cases map.devices iter with ⟨hnext, -⟩ | ⟨key, v, iter', hnext, hremaining⟩
  · simp only [hnext] at hround
    cases hround
    exact ⟨rfl, .refl _, .inl ⟨rfl, h⟩⟩
  · simp only [hnext] at hround
    have hwalks' : ∀ p ∈ map.devices.remaining iter', p ∈ map.devices.entries :=
      fun p hp => hwalks p (hremaining ▸ List.mem_cons_of_mem _ hp)
    cases hdev : map.devices.get key with
    | none =>
      simp only [hdev] at hround
      cases hround
    | some dev =>
      simp only [hdev] at hround
      obtain ⟨⟨command, m⟩, hfind, hround⟩ := Checked.bind_eq_ok.mp hround
      obtain ⟨st, hkept, rfl⟩ := findCommand_eq_ok hfind
      have hm := h.profileObjects hkept
      cases command with
      | none =>
        cases hround
        exact ⟨rfl, .refl _, .inr ⟨iter', none, rfl, hm, hwalks'⟩⟩
      | some command =>
        obtain ⟨m', hretain, hround⟩ := Checked.bind_eq_ok.mp hround
        cases hround
        have hages := retain_ages hretain
        refine ⟨?_, hages, .inr ⟨iter', some (dev, command), rfl, hm.retain hretain, hwalks'⟩⟩
        obtain ⟨d, -, rfl⟩ := retain_eq_ok hretain
        rfl

/-- What a step of a reading call does: it borrows what it takes, and leaves the maps alone. -/
structure ReaderEffect (map map' : Devmap) (borrows : List ObjAddr) (r' : Reader)
    (dev : Option ObjAddr) : Prop where
  sound : map'.Sound (dev.toList ++ borrows)
  devices : map'.devices = map.devices
  walks : r'.Walks map'
  ages : map.objects.Ages map'.objects

theorem Sound.readerStep {r r' : Reader} {dev : Option ObjAddr} (h : map.Sound borrows)
    (hwalks : r.Walks map) (hstep : r.step map = .ok (r', dev, map')) :
    ReaderEffect map map' borrows r' dev := by
  have hretained {a : ObjAddr} {m : Devmap} (hretain : map.retain a = .ok m) :
      m.Sound (a :: borrows) ∧ m.devices = map.devices := by
    obtain ⟨d, hd, rfl⟩ := retain_eq_ok hretain
    exact ⟨h.retain hretain, rfl⟩
  cases r with
  | byid id =>
    obtain ⟨⟨res, m⟩, hcall, hstep⟩ := Checked.bind_eq_ok.mp hstep
    cases hstep
    rcases deviceByid_eq_ok hcall with ⟨rfl, rfl⟩ | ⟨a, rfl, -, hretain⟩
    · exact ⟨h, rfl, trivial, .refl _⟩
    · obtain ⟨hsound, hdevices⟩ := hretained hretain
      exact ⟨hsound, hdevices, trivial, retain_ages hretain⟩
  | byname name =>
    obtain ⟨⟨res, m⟩, hcall, hstep⟩ := Checked.bind_eq_ok.mp hstep
    cases hstep
    rcases deviceByname_eq_ok hcall with ⟨rfl, rfl⟩ | ⟨a, rfl, -, hretain⟩
    · exact ⟨h, rfl, trivial, .refl _⟩
    · obtain ⟨hsound, hdevices⟩ := hretained hretain
      exact ⟨hsound, hdevices, trivial, retain_ages hretain⟩
  | forcmd cmd forGet iter result =>
    obtain ⟨⟨res, m⟩, hround, hstep⟩ := Checked.bind_eq_ok.mp hstep
    obtain ⟨hdevices, hages, ⟨rfl, hsound⟩ | ⟨iter', q, rfl, hsound, hwalks'⟩⟩ :=
      h.forcmdRound hwalks hround
    · cases hstep
      exact ⟨hsound, hdevices, trivial, hages⟩
    · have hnext : ∀ result', (Reader.forcmd cmd forGet iter' result').Walks m := by
        intro result' p hp
        rw [hdevices] at hp ⊢
        exact hwalks' p hp
      cases q with
      | none =>
        cases hstep
        exact ⟨hsound, hdevices, hnext _, hages⟩
      | some q =>
        cases hstep
        exact ⟨hsound, hdevices, hnext _, hages⟩
  | done =>
    cases hstep
    exact ⟨h, rfl, trivial, .refl _⟩

/-- What a writing call still has to add has a free id of its own. -/
def Writer.Fresh (map : Devmap) : Writer → Prop
  | .running (.populate devs) =>
    (∀ dev ∈ devs, map.devices.get dev.id = none) ∧ (devs.map fun dev => dev.id).Nodup
  | .adding dev => map.devices.get dev.id = none
  | _ => True

/-- What a step of a writing call does. -/
structure WriterEffect (map map' : Devmap) (borrows : List ObjAddr) (w' : Writer) : Prop where
  sound : map'.Sound borrows
  fresh : w'.Fresh map'
  ages : map.objects.Ages map'.objects

theorem Sound.writerStep {w w' : Writer} (h : map.Sound borrows) (hfresh : w.Fresh map)
    (hstep : w.step map = .ok (w', map')) : WriterEffect map map' borrows w' := by
  cases w with
  | running c =>
    cases c with
    | populate devs =>
      cases devs with
      | nil =>
        cases hstep
        exact ⟨h, trivial, .refl _⟩
      | cons d devs =>
        obtain ⟨m, hpop, hstep⟩ := Checked.bind_eq_ok.mp hstep
        cases hstep
        obtain ⟨hfree, hnodup⟩ := hfresh
        rw [List.forall_mem_cons] at hfree
        rw [List.map_cons, List.nodup_cons] at hnodup
        obtain ⟨hsound, hother⟩ := h.populateDevice hfree.1 hpop
        -- the devices still to come have other ids than the one just added
        refine ⟨hsound, ⟨fun dev hdev => ?_, hnodup.2⟩, populateDevice_ages hpop⟩
        refine hother dev.id ?_ (hfree.2 dev hdev)
        intro heq
        exact hnodup.1 (heq ▸ List.mem_map_of_mem hdev)
    | replace dev =>
      obtain ⟨⟨add, m⟩, hold, hstep⟩ := Checked.bind_eq_ok.mp hstep
      cases hstep
      obtain ⟨hsound, hfree⟩ := h.replaceOld hold
      cases add with
      | true => exact ⟨hsound, hfree rfl, replaceOld_ages hold⟩
      | false => exact ⟨hsound, trivial, replaceOld_ages hold⟩
    | removeByname name =>
      obtain ⟨m, hremove, hstep⟩ := Checked.bind_eq_ok.mp hstep
      cases hstep
      rcases removedeviceByname_eq_ok hremove with rfl | ⟨a, ha, hremove⟩
      · exact ⟨h, trivial, .refl _⟩
      · exact ⟨h.removeLocked (h.findByname ha a rfl) hremove, trivial, removeLocked_ages hremove⟩
    | removeByid id =>
      obtain ⟨m, hremove, hstep⟩ := Checked.bind_eq_ok.mp hstep
      cases hstep
      obtain ⟨a, ha, hremove⟩ := removedeviceByid_eq_ok hremove
      exact ⟨h.removeLocked ⟨id, ha⟩ hremove, trivial, removeLocked_ages hremove⟩
  | adding dev =>
    obtain ⟨m, hadd, hstep⟩ := Checked.bind_eq_ok.mp hstep
    cases hstep
    exact ⟨h.addLocked hfresh hadd, trivial, addLocked_ages hadd⟩
  | done =>
    cases hstep
    exact ⟨h, trivial, .refl _⟩

/-- What a round of `edgex_devmap_clear` does: it takes out the entry it visits, and goes on to one
that comes first. -/
structure ClearEffect (map map' : Devmap) (borrows : List ObjAddr) (next : Option (Text × Iter)) :
    Prop where
  counted : map'.Counted borrows
  next : (next = none ∧ map'.devices.entries = []) ∨
    ∃ key' iter', next = some (key', iter') ∧ map'.devices.AtFirst key' iter'
  ages : map.objects.Ages map'.objects

theorem Counted.clearRound {key : Text} {iter : Iter} {next : Option (Text × Iter)}
    (h : map.Counted borrows) (hat : map.devices.AtFirst key iter)
    (hround : map.clearRound key iter = .ok (next, map')) :
    ClearEffect map map' borrows next := by
  obtain ⟨a, ha⟩ := hat.get
  simp only [Devmap.clearRound, ha] at hround
  obtain ⟨m, hrelease, hround⟩ := Checked.bind_eq_ok.mp hround
  cases hround
  obtain ⟨d, hd, rfl⟩ := h.device ha
  have hsame := (release_indexes hrelease).1
  have hcounted : Counted { m with devices := map.devices.remove d.id } borrows :=
    h.drop ha hd (HashMap.get_remove _ _) hrelease
  have hages := release_ages hrelease
  rw [hsame]
  exact ⟨hcounted, hat.next, hages⟩

end Steps

end Devmap

end Zigbee
