-- SUMMARY: The profiles in the device maps that the threads reach.
import ZigbeeService.Devices.Backed
import ZigbeeService.Devices.Ingest

/-!
# Reachable device maps

Every device of a map that the threads reach has a profile, whatever ids and names the calls use and
whatever is borrowed, and what holds of all profiles that the calls bring holds of the registered
ones.
-/

namespace Zigbee

open CLib

namespace Devmap

-- ---------------------------------------------------------------------------
-- The profiles of the map
-- ---------------------------------------------------------------------------

/-- Every device has a profile, and every registered profile stands under its own name and has a
property. -/
structure Profiled (P : DeviceProfile → Prop) (map : Devmap) : Prop where
  profile : ∀ {a d}, map.objects.find? a = some d →
    ∃ prof, map.profileObjects.find? d.profile = some prof
  registered : map.Registered P

theorem profiled_alloc {P : DeviceProfile → Prop} : Profiled P alloc where
  profile h := nomatch h
  registered _ _ h := nomatch h

/-- No device is added, and the profiles only change in their tables. -/
structure AddsNone (map map' : Devmap) : Prop where
  objects : ∀ {a d'}, map'.objects.find? a = some d' →
    ∃ d, map.objects.find? a = some d ∧ d.profile = d'.profile
  profiles : map'.profiles = map.profiles
  kept : ProfilesKept map.profileObjects map'.profileObjects

section Changes

variable {map map' : Devmap} {a : ObjAddr} {P : DeviceProfile → Prop}

theorem AddsNone.refl (map : Devmap) : AddsNone map map where
  objects h := ⟨_, h, rfl⟩
  profiles := rfl
  kept := .refl _

theorem AddsNone.trans {map'' : Devmap} (h : AddsNone map map') (h' : AddsNone map' map'') :
    AddsNone map map'' where
  objects hd := by
    obtain ⟨d, hd, hprofile⟩ := h'.objects hd
    obtain ⟨e, he, hprofile'⟩ := h.objects hd
    exact ⟨e, he, hprofile'.trans hprofile⟩
  profiles := h'.profiles.trans h.profiles
  kept := h.kept.trans h'.kept

theorem AddsNone.profiled (h : AddsNone map map') (hP : ∀ {p q}, SameProfile p q → P p → P q)
    (hmap : Profiled P map) : Profiled P map' where
  profile hd := by
    obtain ⟨d, hd, hprofile⟩ := h.objects hd
    obtain ⟨prof, hprof⟩ := hmap.profile hd
    obtain ⟨prof', hprof', -⟩ := h.kept hprof
    exact ⟨prof', by rw [← hprofile, hprof']⟩
  registered := by
    intro n pp hn
    rw [h.profiles] at hn
    obtain ⟨prof, hprof, hname, hprop⟩ := hmap.registered n pp hn
    obtain ⟨prof', hprof', hsame⟩ := h.kept hprof
    exact ⟨prof', hprof', hsame.name_eq.trans hname, hP hsame hprop⟩

/-- A device that keeps its profile. -/
theorem write_addsNone {d d' : DeviceObject} (hd : map.objects.find? a = some d)
    (hprofile : d'.profile = d.profile) :
    AddsNone map { map with objects := map.objects.write a d' } :=
  { AddsNone.refl map with
    objects := by
      intro b e he
      rw [Store.find?_write hd] at he
      split at he
      · next heq =>
        cases he
        exact ⟨d, heq ▸ hd, hprofile.symm⟩
      · exact ⟨e, he, rfl⟩ }

theorem retain_addsNone (h : map.retain a = .ok map') : AddsNone map map' := by
  obtain ⟨d, hd, rfl⟩ := retain_eq_ok h
  exact write_addsNone hd rfl

theorem release_addsNone (h : map.release a = .ok map') : AddsNone map map' := by
  obtain ⟨d, hd, ⟨-, rfl⟩ | ⟨-, rfl⟩⟩ := release_eq_ok h
  · exact { AddsNone.refl map with
      objects := by
        intro b e he
        rw [Store.find?_free] at he
        split at he
        · cases he
        · exact ⟨e, he, rfl⟩ }
  · exact write_addsNone hd rfl

theorem removeLocked_addsNone (h : map.removeLocked a = .ok map') : AddsNone map map' := by
  obtain ⟨d, -, hrelease⟩ := removeLocked_eq_ok h
  have hout : AddsNone map { map with
      nameToId := map.nameToId.remove d.name, devices := map.devices.remove d.id } :=
    { AddsNone.refl map with }
  exact hout.trans (release_addsNone hrelease)

theorem replaceOld_addsNone {dev : Device} {add : Bool}
    (h : map.replaceOld dev = .ok (add, map')) : AddsNone map map' := by
  rcases replaceOld_eq_ok h with ⟨-, -, rfl⟩ | ⟨a, -, ⟨-, hupdate⟩ | ⟨-, -, hremove⟩⟩
  · exact .refl _
  · obtain ⟨d, hd, ⟨-, rfl⟩ | ⟨-, -, rfl⟩⟩ := updateInPlace_eq_ok hupdate
    · exact .refl _
    · exact write_addsNone hd rfl
  · exact removeLocked_addsNone hremove

theorem clearRound_addsNone {key : Text} {iter : Iter} {next : Option (Text × Iter)}
    (h : map.clearRound key iter = .ok (next, map')) : AddsNone map map' := by
  unfold clearRound at h
  split at h
  · cases h
  · obtain ⟨m, hrelease, h⟩ := Checked.bind_eq_ok.mp h
    cases h
    exact (release_addsNone hrelease).trans { AddsNone.refl m with }

theorem readerStep_addsNone {r r' : Reader} {dev : Option ObjAddr}
    (h : r.step map = .ok (r', dev, map')) : AddsNone map map' := by
  cases r with
  | byid id =>
    obtain ⟨⟨res, m⟩, hcall, h⟩ := Checked.bind_eq_ok.mp h
    cases h
    rcases deviceByid_eq_ok hcall with ⟨-, rfl⟩ | ⟨a, -, -, hretain⟩
    · exact .refl _
    · exact retain_addsNone hretain
  | byname name =>
    obtain ⟨⟨res, m⟩, hcall, h⟩ := Checked.bind_eq_ok.mp h
    cases h
    rcases deviceByname_eq_ok hcall with ⟨-, rfl⟩ | ⟨a, -, -, hretain⟩
    · exact .refl _
    · exact retain_addsNone hretain
  | forcmd cmd forGet iter result =>
    obtain ⟨⟨res, m⟩, hround, h⟩ := Checked.bind_eq_ok.mp h
    have hm : AddsNone map m := by
      unfold forcmdRound at hround
      split at hround
      · cases hround
        exact .refl _
      · split at hround
        · cases hround
        · obtain ⟨⟨command, m'⟩, hfind, hround⟩ := Checked.bind_eq_ok.mp hround
          obtain ⟨st, hkept, rfl⟩ := findCommand_eq_ok hfind
          have htable : AddsNone map { map with profileObjects := st } :=
            { AddsNone.refl map with kept := hkept }
          cases command with
          | none =>
            cases hround
            exact htable
          | some command =>
            obtain ⟨m'', hretain, hround⟩ := Checked.bind_eq_ok.mp hround
            cases hround
            exact htable.trans (retain_addsNone hretain)
    obtain _ | ⟨iter', _ | q⟩ := res <;> (cases h; exact hm)
  | done =>
    cases h
    exact .refl _

/-- The copy that the device brings of its profile. -/
def BringsProfile (P : DeviceProfile → Prop) (dev : Device) : Prop :=
  ∀ p, dev.profile = some p → P (edgexDeviceprofileDup p)

theorem Profiled.addLocked {dev : Device} (h : Profiled P map)
    (hP : ∀ {p q}, SameProfile p q → P p → P q) (hdev : BringsProfile P dev)
    (hadd : map.addLocked dev = .ok map') : Profiled P map' where
  profile := by
    obtain ⟨pp, hadded⟩ := addLocked_eq_ok hadd
    intro a d hd
    rw [hadded.objects, Store.find?_alloc] at hd
    split at hd
    · cases hd
      obtain ⟨-, prof, -, -, hprof⟩ := hadded.profile
      exact ⟨prof, hprof⟩
    · obtain ⟨prof, hprof⟩ := h.profile hd
      obtain ⟨prof', hprof', -⟩ := hadded.kept hprof
      exact ⟨prof', hprof'⟩
  registered := h.registered.addLocked hP hdev hadd

/-- The indexes of a standing map lead to devices with profiles. -/
theorem Standing.live {borrows : List ObjAddr} (h : map.Standing borrows) (hmap : Profiled P map) :
    map.Live where
  device ha := by
    obtain ⟨d, hd, hid, -⟩ := h.backed.device ha
    obtain ⟨prof, hprof⟩ := hmap.profile hd
    exact ⟨d, prof, hd, hid, hprof⟩

end Changes

-- ---------------------------------------------------------------------------
-- The threads
-- ---------------------------------------------------------------------------

/-- The devices that a writing call has still to add. -/
def Writer.devices : Writer → List Device
  | .running c => c.devices
  | .adding dev => [dev]
  | .done => []

def Phase.devices : Phase → List Device
  | .writing w => w.devices
  | _ => []

/-- The devices that an action brings. -/
def Action.devices : Action → List Device
  | .wrlock c => c.devices
  | _ => []

/-- What holds of the threads while the devices that they bring have profiles with the property. -/
structure Threads.Profiled (P : DeviceProfile → Prop) (s : Threads) : Prop where
  profiled : Devmap.Profiled P s.map
  devices : ∀ d ∈ s.phase.devices, BringsProfile P d

section Steps

variable {P : DeviceProfile → Prop} {s s' : Threads} {a : Action}

theorem Threads.profiled_init : Threads.init.Profiled P where
  profiled := profiled_alloc
  devices _ h := nomatch h

theorem clearPhase_devices (next : Option (Text × Iter)) : (clearPhase next).devices = [] := by
  cases next with
  | none => rfl
  | some entry => rfl

theorem Profiled.writerStep {map map' : Devmap} {w w' : Writer} (h : Profiled P map)
    (hP : ∀ {p q}, SameProfile p q → P p → P q) (hdevices : ∀ d ∈ w.devices, BringsProfile P d)
    (hstep : w.step map = .ok (w', map')) :
    Profiled P map' ∧ ∀ d ∈ w'.devices, BringsProfile P d := by
  cases w with
  | running c =>
    cases c with
    | populate devs =>
      cases devs with
      | nil =>
        cases hstep
        exact ⟨h, List.forall_mem_nil _⟩
      | cons d devs =>
        obtain ⟨hd, hdevs⟩ := List.forall_mem_cons.mp hdevices
        obtain ⟨m, hpop, hstep⟩ := Checked.bind_eq_ok.mp hstep
        cases hstep
        refine ⟨?_, hdevs⟩
        unfold populateDevice at hpop
        split at hpop
        · cases hpop
          exact h
        · exact h.addLocked hP hd hpop
    | replace dev =>
      obtain ⟨⟨add, m⟩, hold, hstep⟩ := Checked.bind_eq_ok.mp hstep
      cases hstep
      refine ⟨(replaceOld_addsNone hold).profiled hP h, ?_⟩
      cases add with
      | true => exact hdevices
      | false => exact List.forall_mem_nil _
    | removeByname name =>
      obtain ⟨m, hremove, hstep⟩ := Checked.bind_eq_ok.mp hstep
      cases hstep
      rcases removedeviceByname_eq_ok hremove with rfl | ⟨a, -, hremove⟩
      · exact ⟨h, List.forall_mem_nil _⟩
      · exact ⟨(removeLocked_addsNone hremove).profiled hP h, List.forall_mem_nil _⟩
    | removeByid id =>
      obtain ⟨m, hremove, hstep⟩ := Checked.bind_eq_ok.mp hstep
      cases hstep
      obtain ⟨a, -, hremove⟩ := removedeviceByid_eq_ok hremove
      exact ⟨(removeLocked_addsNone hremove).profiled hP h, List.forall_mem_nil _⟩
  | adding dev =>
    obtain ⟨m, hadd, hstep⟩ := Checked.bind_eq_ok.mp hstep
    cases hstep
    exact ⟨h.addLocked hP (hdevices dev List.mem_cons_self) hadd, List.forall_mem_nil _⟩
  | done =>
    cases hstep
    exact ⟨h, List.forall_mem_nil _⟩

theorem Threads.Profiled.step (h : s.Profiled P) (hP : ∀ {p q}, SameProfile p q → P p → P q)
    (hdevices : ∀ d ∈ a.devices, BringsProfile P d)
    (hstep : threadsStep s a = some (.ok s')) : s'.Profiled P := by
  cases threadsStep_stepsTo hstep with
  | rdlock q => exact ⟨h.profiled, List.forall_mem_nil _⟩
  | readDone hcall => exact ⟨h.profiled, List.forall_mem_nil _⟩
  | read hcall hread =>
    exact ⟨(readerStep_addsNone hread).profiled hP h.profiled, List.forall_mem_nil _⟩
  | wrlock c => exact ⟨h.profiled, hdevices⟩
  | writeDone => exact ⟨h.profiled, List.forall_mem_nil _⟩
  | write hwrite =>
    obtain ⟨hprofiled, hrest⟩ := h.profiled.writerStep hP h.devices hwrite
    exact ⟨hprofiled, hrest⟩
  | release hmem hrelease =>
    exact ⟨(release_addsNone hrelease).profiled hP h.profiled, h.devices⟩
  | clear =>
    refine ⟨h.profiled, ?_⟩
    rw [clearPhase_devices]
    exact List.forall_mem_nil _
  | clearRound hround =>
    refine ⟨(clearRound_addsNone hround).profiled hP h.profiled, ?_⟩
    rw [clearPhase_devices]
    exact List.forall_mem_nil _

theorem Threads.profiled_of_run {as : List Action}
    (hrun : Machine.run (Machine.checked threadsStep) (.ok .init) as = some (.ok s))
    (hP : ∀ {p q}, SameProfile p q → P p → P q)
    (has : ∀ a ∈ as, ∀ d ∈ a.devices, BringsProfile P d) : s.Profiled P := by
  have hstep : ∀ {t a t'}, Threads.Profiled P t →
      (∀ d ∈ Action.devices a, BringsProfile P d) → threadsStep t a = some (.ok t') →
      Threads.Profiled P t' := fun h ha hstep => h.step hP ha hstep
  exact Machine.checked_run_invariant hstep hrun has Threads.profiled_init

/-- While nobody has the map, every id leads to a device with a profile, and every profile stands
under its name. -/
theorem Threads.live_of_run {as : List Action}
    (hrun : Machine.run (Machine.checked threadsStep) (.ok .init) as = some (.ok s))
    (hidle : s.phase = .reading []) :
    s.map.Live ∧ s.map.Registered fun _ => True := by
  have h : s.Profiled fun _ => True :=
    profiled_of_run hrun (fun _ _ => trivial) fun _ _ _ _ _ _ => trivial
  exact ⟨(standing_of_run hrun hidle).live h.profiled, h.profiled.registered⟩

/-- Complete devices in addition bring profiles that can be searched. -/
theorem Threads.held_of_run {as : List Action}
    (hrun : Machine.run (Machine.checked threadsStep) (.ok .init) as = some (.ok s))
    (hidle : s.phase = .reading []) (has : ∀ a ∈ as, ∀ d ∈ a.devices, d.Complete) :
    s.map.Held := by
  refine ⟨(live_of_run hrun hidle).1.device, ?_⟩
  refine (profiled_of_run hrun (fun hsame hops => hsame.opsNamed hops) ?_).profiled.registered
  intro a ha d hd p hp
  obtain ⟨q, hq, hnamed⟩ := (has a ha d hd).profile
  cases hq.symm.trans hp
  exact hnamed

end Steps

end Devmap

end Zigbee
