-- SUMMARY: What holds of the device map whatever devices the calls bring: every reference is counted.
import ZigbeeService.Devices.Lifetimes

/-!
# References to devices, whatever the calls bring

When populating puts a device over another with its id, the device below keeps a reference that
nobody owns, and its name still leads to it. The counts are then no longer exact, but they cover
every reference there is.
-/

namespace Zigbee

open CLib

namespace Devmap

-- ---------------------------------------------------------------------------
-- References that are backed by the counts
-- ---------------------------------------------------------------------------

/-- The references a device counts; none when it is gone. -/
def refsOf (map : Devmap) (a : ObjAddr) : Nat := (map.objects.find? a).elim 0 DeviceObject.refs

/-- A live object with such an id and name, which counts more than the borrowed references. -/
def Entry (map : Devmap) (borrows : List ObjAddr) (a : ObjAddr) (P : Text → Text → Prop) : Prop :=
  ∃ d, map.objects.find? a = some d ∧ P d.id d.name ∧ borrows.count a < d.refs

/-- Every borrowed reference is counted, and every device of the map counts one more. -/
structure Backed (map : Devmap) (borrows : List ObjAddr) : Prop where
  counts : ∀ a, borrows.count a ≤ map.refsOf a
  device : ∀ {id a}, map.devices.get id = some a → map.Entry borrows a fun i _ => i = id

/-- So does every device that a name leads to. -/
def NamesBacked (map : Devmap) (borrows : List ObjAddr) : Prop :=
  ∀ n a, map.nameToId.get n = some a → map.Entry borrows a fun _ m => m = n

section Objects

variable {map map' : Devmap} {borrows borrows' : List ObjAddr} {a b : ObjAddr}
  {d d' : DeviceObject} {P : Text → Text → Prop}

theorem refsOf_of_some (h : map.objects.find? a = some d) : map.refsOf a = d.refs := by
  rw [refsOf, h]
  rfl

theorem refsOf_of_none (h : map.objects.find? a = none) : map.refsOf a = 0 := by
  rw [refsOf, h]
  rfl

theorem Backed.borrowed (h : map.Backed borrows) (ha : a ∈ borrows) :
    ∃ d, map.objects.find? a = some d := by
  cases hd : map.objects.find? a with
  | some d => exact ⟨d, rfl⟩
  | none =>
    have hle := h.counts a
    rw [refsOf_of_none hd] at hle
    exact absurd (List.count_pos_iff.mpr ha) (by omega)

/-- A change of one object that keeps its id, its name, and what it counts beside the borrows. -/
structure SameBacking (borrows borrows' : List ObjAddr) (a : ObjAddr) (d d' : DeviceObject) :
    Prop where
  id : d'.id = d.id
  name : d'.name = d.name
  refs : borrows'.count a + d.refs = borrows.count a + d'.refs
  other : ∀ b, b ≠ a → borrows'.count b = borrows.count b

theorem Entry.write (h : map.Entry borrows b P) (hd : map.objects.find? a = some d)
    (hsame : SameBacking borrows borrows' a d d') :
    Entry { map with objects := map.objects.write a d' } borrows' b P := by
  obtain ⟨e, he, hP, hlt⟩ := h
  unfold Entry
  simp only [Store.find?_write hd]
  by_cases hb : b = a
  · subst hb
    cases hd.symm.trans he
    refine ⟨d', if_pos rfl, by rw [hsame.id, hsame.name]; exact hP, ?_⟩
    have := hsame.refs
    omega
  · exact ⟨e, by rw [if_neg hb, he], hP, by rw [hsame.other b hb]; exact hlt⟩

theorem Backed.write (h : map.Backed borrows) (hd : map.objects.find? a = some d)
    (hsame : SameBacking borrows borrows' a d d') :
    Backed { map with objects := map.objects.write a d' } borrows' where
  counts := by
    intro b
    have hle := h.counts b
    simp only [refsOf, Store.find?_write hd] at hle ⊢
    by_cases hb : b = a
    · subst hb
      have := hsame.refs
      rw [hd] at hle
      rw [if_pos rfl]
      simp only [Option.elim_some] at hle ⊢
      omega
    · rw [if_neg hb, hsame.other b hb]
      exact hle
  device hid := (h.device hid).write hd hsame

/-- Freeing an object that nobody else refers to. -/
theorem Entry.free (h : map.Entry borrows b P) (hd : map.objects.find? a = some d)
    (hone : d.refs = 1) (ha : a ∈ borrows) :
    Entry { map with objects := map.objects.free a } (borrows.erase a) b P := by
  obtain ⟨e, he, hP, hlt⟩ := h
  have hb : b ≠ a := by
    rintro rfl
    cases hd.symm.trans he
    have := List.count_pos_iff.mpr ha
    omega
  exact ⟨e, by rw [Store.find?_free, if_neg hb, he], hP, by
    rw [List.count_erase_of_ne hb]; exact hlt⟩

theorem Backed.free (h : map.Backed borrows) (hd : map.objects.find? a = some d)
    (hone : d.refs = 1) (ha : a ∈ borrows) :
    Backed { map with objects := map.objects.free a } (borrows.erase a) where
  counts := by
    intro b
    have hle := h.counts b
    simp only [refsOf, Store.find?_free] at hle ⊢
    by_cases hb : b = a
    · subst hb
      rw [hd] at hle
      simp only [Option.elim_some, hone] at hle
      rw [List.count_erase_self]
      omega
    · rw [if_neg hb, List.count_erase_of_ne hb]
      exact hle
  device hid := (h.device hid).free hd hone ha

-- ---------------------------------------------------------------------------
-- The operations
-- ---------------------------------------------------------------------------

theorem SameBacking.retain (d : DeviceObject) :
    SameBacking borrows (a :: borrows) a d { d with refs := d.refs + 1 } where
  id := rfl
  name := rfl
  refs := by
    rw [List.count_cons_self]
    exact Nat.add_right_comm _ _ _ |>.trans (Nat.add_assoc _ _ _)
  other b hb := List.count_cons_of_ne hb.symm

theorem SameBacking.release (ha : a ∈ borrows) (hpos : 0 < d.refs) :
    SameBacking borrows (borrows.erase a) a d { d with refs := d.refs - 1 } where
  id := rfl
  name := rfl
  refs := by
    have := List.count_pos_iff.mpr ha
    rw [List.count_erase_self]
    dsimp only
    omega
  other b hb := List.count_erase_of_ne hb

theorem SameBacking.updated (src : Device) :
    SameBacking borrows borrows a d (Devmap.updated d src) where
  id := rfl
  name := rfl
  refs := rfl
  other _ _ := rfl

/-- What the operations rely on while the names are in use. -/
structure Standing (map : Devmap) (borrows : List ObjAddr) : Prop where
  backed : map.Backed borrows
  names : map.NamesBacked borrows

theorem Standing.write (h : map.Standing borrows) (hd : map.objects.find? a = some d)
    (hsame : SameBacking borrows borrows' a d d') :
    Standing { map with objects := map.objects.write a d' } borrows' :=
  ⟨h.backed.write hd hsame, fun n b hb => (h.names n b hb).write hd hsame⟩

theorem Standing.retain (h : map.Standing borrows) (hretain : map.retain a = .ok map') :
    map'.Standing (a :: borrows) := by
  obtain ⟨d, hd, rfl⟩ := retain_eq_ok hretain
  exact h.write hd (.retain d)

/-- Giving a reference back. -/
theorem Backed.release (h : map.Backed borrows) (ha : a ∈ borrows)
    (hrelease : map.release a = .ok map') : map'.Backed (borrows.erase a) := by
  obtain ⟨d, hd, ⟨hone, rfl⟩ | ⟨-, rfl⟩⟩ := release_eq_ok hrelease
  · exact h.free hd hone ha
  · have hle := h.counts a
    rw [refsOf_of_some hd] at hle
    exact h.write hd (.release ha (Nat.lt_of_lt_of_le (List.count_pos_iff.mpr ha) hle))

theorem Standing.release (h : map.Standing borrows) (ha : a ∈ borrows)
    (hrelease : map.release a = .ok map') : map'.Standing (borrows.erase a) := by
  refine ⟨h.backed.release ha hrelease, ?_⟩
  obtain ⟨d, hd, ⟨hone, rfl⟩ | ⟨-, rfl⟩⟩ := release_eq_ok hrelease
  · exact fun n b hb => (h.names n b hb).free hd hone ha
  · have hle := h.backed.counts a
    rw [refsOf_of_some hd] at hle
    have hpos := Nat.lt_of_lt_of_le (List.count_pos_iff.mpr ha) hle
    exact fun n b hb => (h.names n b hb).write hd (.release ha hpos)

/-- A device goes out of the map: its reference is now that of whoever takes it out. -/
theorem Backed.handOver {devices : EdgexMap ObjAddr} (h : map.Backed borrows)
    (names : EdgexMap ObjAddr) (hid : map.devices.get d.id = some a)
    (hd : map.objects.find? a = some d)
    (hdevices : ∀ id, devices.get id = if id = d.id then none else map.devices.get id) :
    Backed { map with nameToId := names, devices := devices } (a :: borrows) where
  counts := by
    intro b
    have hle := h.counts b
    by_cases hb : b = a
    · subst hb
      obtain ⟨e, he, -, hlt⟩ := h.device hid
      rw [List.count_cons_self]
      have hrefs := refsOf_of_some he
      show borrows.count b + 1 ≤ map.refsOf b
      omega
    · rw [List.count_cons_of_ne (Ne.symm hb)]
      exact hle
  device := by
    intro id b hb
    rw [hdevices] at hb
    split at hb
    · cases hb
    · next hne =>
      obtain ⟨e, he, heid, hlt⟩ := h.device hb
      have hba : b ≠ a := by
        rintro rfl
        cases hd.symm.trans he
        exact hne heid.symm
      exact ⟨e, he, heid, by rw [List.count_cons_of_ne hba.symm]; exact hlt⟩

theorem Standing.removeLocked (h : map.Standing borrows) {id : Text}
    (ha : map.devices.get id = some a) (hremove : map.removeLocked a = .ok map') :
    map'.Standing borrows := by
  obtain ⟨d, hd, hrelease⟩ := removeLocked_eq_ok hremove
  obtain ⟨e, he, rfl, -⟩ := h.backed.device ha
  obtain rfl : d = e := Option.some.inj (hd.symm.trans he)
  have hbacked := h.backed.handOver (map.nameToId.remove d.name) ha hd (HashMap.get_remove _ _)
  have hnames : NamesBacked { map with
      nameToId := map.nameToId.remove d.name, devices := map.devices.remove d.id }
      (a :: borrows) := by
    intro n b hb
    rw [HashMap.get_remove] at hb
    split at hb
    · cases hb
    · next hn =>
      obtain ⟨f, hf, hname, hlt⟩ := h.names n b hb
      have hba : b ≠ a := by
        rintro rfl
        obtain rfl : d = f := Option.some.inj (hd.symm.trans hf)
        exact hn hname.symm
      exact ⟨f, hf, hname, by rw [List.count_cons_of_ne hba.symm]; exact hlt⟩
  have hstanding := (Standing.mk hbacked hnames).release List.mem_cons_self hrelease
  rwa [List.erase_cons_head] at hstanding

/-- Adding a device, under whatever id and name. -/
theorem Standing.addLocked {dev : Device} (h : map.Standing borrows)
    (hadd : map.addLocked dev = .ok map') : map'.Standing borrows := by
  obtain ⟨pp, hadded⟩ := addLocked_eq_ok hadd
  -- nobody has borrowed the address that the new object gets
  have hnew : borrows.count map.objects.size = 0 := by
    have hle := h.backed.counts map.objects.size
    rw [refsOf_of_none Store.find?_size] at hle
    omega
  have hentry {Q : Text → Text → Prop} (hQ : Q dev.id dev.name) :
      map'.Entry borrows map.objects.size Q := by
    refine ⟨_, by rw [hadded.objects, Store.find?_alloc, if_pos rfl], hQ, ?_⟩
    rw [hnew]
    exact Nat.one_pos
  have hkept {b : ObjAddr} {Q : Text → Text → Prop} (hb : map.Entry borrows b Q) :
      map'.Entry borrows b Q := by
    obtain ⟨e, he, hrest⟩ := hb
    exact ⟨e, by rw [hadded.objects]; exact Store.find?_alloc_of_some he, hrest⟩
  refine ⟨⟨fun b => ?_, fun {id b} hb => ?_⟩, fun n b hb => ?_⟩
  · have hle := h.backed.counts b
    simp only [refsOf, hadded.objects, Store.find?_alloc] at hle ⊢
    split
    · next hb =>
      rw [hb, hnew]
      exact Nat.zero_le _
    · exact hle
  · rw [hadded.devices, HashMap.get_set] at hb
    split at hb
    · next hid =>
      cases hb
      exact hentry hid.symm
    · exact hkept (h.backed.device hb)
  · rw [hadded.nameToId, HashMap.get_set] at hb
    split at hb
    · next hn =>
      cases hb
      exact hentry hn.symm
    · exact hkept (h.names n b hb)

theorem Standing.replaceOld {dev : Device} {add : Bool} (h : map.Standing borrows)
    (hold : map.replaceOld dev = .ok (add, map')) : map'.Standing borrows := by
  rcases replaceOld_eq_ok hold with ⟨-, -, rfl⟩ | ⟨a, ha, ⟨-, hupdate⟩ | ⟨-, -, hremove⟩⟩
  · exact h
  · obtain ⟨d, hd, ⟨-, rfl⟩ | ⟨-, -, rfl⟩⟩ := updateInPlace_eq_ok hupdate
    · exact h
    · exact h.write hd (.updated dev)
  · exact h.removeLocked ha hremove

theorem Standing.readerStep {r r' : Reader} {dev : Option ObjAddr} (h : map.Standing borrows)
    (hstep : r.step map = .ok (r', dev, map')) : map'.Standing (dev.toList ++ borrows) := by
  cases r with
  | byid id =>
    obtain ⟨⟨res, m⟩, hcall, hstep⟩ := Checked.bind_eq_ok.mp hstep
    cases hstep
    rcases deviceByid_eq_ok hcall with ⟨rfl, rfl⟩ | ⟨a, rfl, -, hretain⟩
    · exact h
    · exact h.retain hretain
  | byname name =>
    obtain ⟨⟨res, m⟩, hcall, hstep⟩ := Checked.bind_eq_ok.mp hstep
    cases hstep
    rcases deviceByname_eq_ok hcall with ⟨rfl, rfl⟩ | ⟨a, rfl, -, hretain⟩
    · exact h
    · exact h.retain hretain
  | forcmd cmd forGet iter result =>
    obtain ⟨⟨res, m⟩, hround, hstep⟩ := Checked.bind_eq_ok.mp hstep
    unfold Devmap.forcmdRound at hround
    split at hround
    · cases hround
      cases hstep
      exact h
    · next key iter' hnext =>
      split at hround
      · cases hround
      · next a hget =>
        obtain ⟨⟨command, m'⟩, hfind, hround⟩ := Checked.bind_eq_ok.mp hround
        obtain ⟨st, -, rfl⟩ := findCommand_eq_ok hfind
        have hm : Standing { map with profileObjects := st } borrows :=
          ⟨⟨h.backed.counts, h.backed.device⟩, h.names⟩
        cases command with
        | none =>
          cases hround
          cases hstep
          exact hm
        | some command =>
          obtain ⟨m'', hretain, hround⟩ := Checked.bind_eq_ok.mp hround
          cases hround
          cases hstep
          exact hm.retain hretain
  | done =>
    cases hstep
    exact h

theorem Standing.writerStep {w w' : Writer} (h : map.Standing borrows)
    (hstep : w.step map = .ok (w', map')) : map'.Standing borrows := by
  cases w with
  | running c =>
    cases c with
    | populate devs =>
      cases devs with
      | nil =>
        cases hstep
        exact h
      | cons d devs =>
        obtain ⟨m, hpop, hstep⟩ := Checked.bind_eq_ok.mp hstep
        cases hstep
        unfold populateDevice at hpop
        split at hpop
        · cases hpop
          exact h
        · exact h.addLocked hpop
    | replace dev =>
      obtain ⟨⟨add, m⟩, hold, hstep⟩ := Checked.bind_eq_ok.mp hstep
      cases hstep
      exact h.replaceOld hold
    | removeByname name =>
      obtain ⟨m, hremove, hstep⟩ := Checked.bind_eq_ok.mp hstep
      cases hstep
      rcases removedeviceByname_eq_ok hremove with rfl | ⟨a, ha, hremove⟩
      · exact h
      · obtain ⟨-, d, -, -, hid⟩ := findByname_eq_some.mp ha
        exact h.removeLocked hid hremove
    | removeByid id =>
      obtain ⟨m, hremove, hstep⟩ := Checked.bind_eq_ok.mp hstep
      cases hstep
      obtain ⟨a, ha, hremove⟩ := removedeviceByid_eq_ok hremove
      exact h.removeLocked ha hremove
  | adding dev =>
    obtain ⟨m, hadd, hstep⟩ := Checked.bind_eq_ok.mp hstep
    cases hstep
    exact h.addLocked hadd
  | done =>
    cases hstep
    exact h

end Objects

-- ---------------------------------------------------------------------------
-- The threads
-- ---------------------------------------------------------------------------

/-- What holds in each phase, whatever the calls bring. -/
def Phase.Stands (map : Devmap) (borrows : List ObjAddr) : Phase → Prop
  | .reading _ => map.Standing borrows
  | .writing _ => map.Standing borrows
  | .clearing key iter => map.Backed borrows ∧ map.devices.AtFirst key iter
  | .cleared => map.Backed borrows ∧ map.devices.entries = []

def Threads.Stands (s : Threads) : Prop := s.phase.Stands s.map s.borrows

theorem Threads.stands_init : Threads.init.Stands where
  backed := ⟨fun a => by simp [Threads.init], fun h => nomatch h⟩
  names _ _ h := nomatch h

section Steps

variable {s t s' : Threads} {a : Action}

theorem clearPhase_stands {map : Devmap} {borrows : List ObjAddr} {next : Option (Text × Iter)}
    (h : map.Backed borrows)
    (hnext : (next = none ∧ map.devices.entries = []) ∨
      ∃ key iter, next = some (key, iter) ∧ map.devices.AtFirst key iter) :
    (clearPhase next).Stands map borrows := by
  rcases hnext with ⟨rfl, hnil⟩ | ⟨key, iter, rfl, hat⟩
  · exact ⟨h, hnil⟩
  · exact ⟨h, hat⟩

/-- The device that a round of `edgex_devmap_clear` visits, and what the round does with it. -/
theorem Backed.clearRound {map : Devmap} {borrows : List ObjAddr} {key : Text} {iter : Iter}
    (h : map.Backed borrows) (hat : map.devices.AtFirst key iter) :
    ∃ e d m, map.devices.get key = some e ∧ map.objects.find? e = some d ∧ d.id = key ∧
      map.release e = .ok m ∧ m.devices = map.devices ∧ m.nameToId = map.nameToId ∧
      map.clearRound key iter =
        .ok (map.devices.next iter, { m with devices := map.devices.remove key }) ∧
      Backed { m with devices := map.devices.remove key } borrows := by
  obtain ⟨e, he⟩ := hat.get
  obtain ⟨d, hd, rfl, -⟩ := h.device he
  have hrelease : ∃ m, map.release e = .ok m := by
    unfold Devmap.release
    rw [Store.read_eq_ok.mpr hd, Checked.ok_bind]
    split
    · exact ⟨_, rfl⟩
    · exact ⟨_, rfl⟩
  obtain ⟨m, hm⟩ := hrelease
  have hsame := release_indexes hm
  have hout : Devmap.release { map with
      nameToId := map.nameToId, devices := map.devices.remove d.id } e =
        .ok { m with nameToId := map.nameToId, devices := map.devices.remove d.id } := by
    rw [release_maps, hm]
    rfl
  have hbacked := (h.handOver map.nameToId he hd (HashMap.get_remove _ _)).release
    List.mem_cons_self hout
  rw [List.erase_cons_head, ← hsame.2] at hbacked
  refine ⟨e, d, m, he, hd, rfl, hm, hsame.1, hsame.2, ?_, hbacked⟩
  simp only [Devmap.clearRound, he, hm, Checked.ok_bind, hsame.1]
  rfl

theorem Threads.Stands.step (h : s.Stands) (hstep : threadsStep s a = some (.ok s')) :
    s'.Stands := by
  cases threadsStep_stepsTo hstep with
  | rdlock q => exact h
  | readDone hcall => exact h
  | read hcall hread => exact Standing.readerStep h hread
  | wrlock c => exact h
  | writeDone => exact h
  | write hwrite => exact Standing.writerStep h hwrite
  | @release map m phase borrows dev hmem hrelease =>
    cases phase with
    | reading | writing => exact Standing.release h hmem hrelease
    | clearing | cleared =>
      refine ⟨h.1.release hmem hrelease, ?_⟩
      rw [(release_indexes hrelease).1]
      exact h.2
  | clear => exact clearPhase_stands h.backed (HashMap.next_iter _)
  | clearRound hround =>
    obtain ⟨e, d, m, -, -, -, -, -, -, hround', hbacked⟩ := h.1.clearRound h.2
    cases hround'.symm.trans hround
    exact clearPhase_stands hbacked h.2.next

theorem Threads.stands_of_run {as : List Action}
    (hrun : Machine.run (Machine.checked threadsStep) (.ok .init) as = some (.ok s)) : s.Stands := by
  have hstep : ∀ {t a t'}, Threads.Stands t → True → threadsStep t a = some (.ok t') →
      Threads.Stands t' := fun h _ hstep => h.step hstep
  exact Machine.checked_run_invariant hstep hrun (fun _ _ => trivial) stands_init

/-- What the next call finds. -/
theorem Threads.standing_of_run {as : List Action}
    (hrun : Machine.run (Machine.checked threadsStep) (.ok .init) as = some (.ok s))
    (hidle : s.phase = .reading []) : s.map.Standing s.borrows := by
  have hstands := stands_of_run hrun
  rwa [Threads.Stands, hidle] at hstands

end Steps

end Devmap

end Zigbee
