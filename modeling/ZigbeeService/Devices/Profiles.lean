-- SUMMARY: Profiles that the devices share: edgex_deviceprofile_get_internal beside the calls that add devices.
import ZigbeeService.Devices.Index

/-!
# Shared profiles

The devices of the map point to the profiles of the map. `add_locked` registers a profile when none
of its name is there; `edgex_deviceprofile_get_internal` looks for one, fetches it from metadata and
registers it with `edgex_devmap_add_profile`, which does not look again.
-/

namespace Zigbee

open CLib

namespace Devmap

-- ---------------------------------------------------------------------------
-- The functions
-- ---------------------------------------------------------------------------

/-- `edgex_devmap_add_profile`. -/
def addProfile (map : Devmap) (dp : ObjAddr) : Checked Devmap := do
  let prof ← map.profileObjects.read dp
  return { map with profiles := map.profiles.set prof.name dp }

/-- The loop of `edgex_devmap_free`: each profile that is registered is freed. -/
def freeProfiles (map : Devmap) : Checked (Store DeviceProfile) :=
  map.profiles.entries.foldlM (fun st p => do
    let _ ← st.read p.2
    return st.free p.2) map.profileObjects

/-- Where a thread is in `edgex_deviceprofile_get_internal`. -/
inductive Getter where
  /-- `edgex_devmap_profile` returned NULL. -/
  | fetching (name : Text)
  /-- Metadata has answered with a profile. -/
  | adding (newdp : ObjAddr)
  | done
  deriving DecidableEq

/-- The map, the threads that look for a profile, and what these calls have returned. -/
structure ProfileUse where
  map : Devmap
  getters : List Getter
  returned : List ObjAddr

def ProfileUse.init : ProfileUse := ⟨alloc, [], []⟩

inductive ProfileAction where
  /-- A call that adds, replaces or removes devices. -/
  | call (c : Call)
  /-- `edgex_devmap_profile`, at the start of `edgex_deviceprofile_get_internal`. -/
  | lookup (name : Text)
  /-- What `edgex_metadata_client_get_deviceprofile` returns to a thread. -/
  | fetch (getter : Nat) (answer : Option DeviceProfile)
  /-- `edgex_devmap_add_profile`. -/
  | add (getter : Nat)

/-- A step. It is not enabled where the call would fault. -/
def profileStep (s : ProfileUse) : ProfileAction → Option ProfileUse
  | .call c => (s.map.call c).toOption.map fun map => { s with map := map }
  | .lookup name =>
    match s.map.profiles.get name with
    | some dp => some { s with returned := dp :: s.returned }
    | none => some { s with getters := s.getters ++ [.fetching name] }
  | .fetch i answer =>
    match s.getters[i]? with
    | some (.fetching _) =>
      match answer with
      | none => some { s with getters := s.getters.set i .done }
      | some newdp => some { s with
          map := { s.map with profileObjects := s.map.profileObjects.alloc newdp }
          getters := s.getters.set i (.adding s.map.profileObjects.size) }
    | _ => none
  | .add i =>
    match s.getters[i]? with
    | some (.adding newdp) => (s.map.addProfile newdp).toOption.map fun map =>
        ⟨map, s.getters.set i .done, newdp :: s.returned⟩
    | _ => none

-- ---------------------------------------------------------------------------
-- Specification
-- ---------------------------------------------------------------------------

/-- The object is registered under the name of the profile in it. -/
def IsRegistered (map : Devmap) (p : ObjAddr) : Prop :=
  ∃ prof, map.profileObjects.find? p = some prof ∧ map.profiles.get prof.name = some p

/-- Devices and callers share the registered profiles, and each profile is freed once. -/
structure ProfilesShared (s : ProfileUse) : Prop where
  device : ∀ a d, s.map.Holds a d → s.map.IsRegistered d.profile
  returned : ∀ p ∈ s.returned, s.map.IsRegistered p
  freed : (∀ p, .adding p ∉ s.getters) →
    ∃ st, s.map.freeProfiles = .ok st ∧ ∀ p, st.find? p = none

/-- Metadata's answer is only registered while there is no profile of its name. -/
def RegistersNew (s : ProfileUse) : ProfileAction → Prop
  | .add i => ∀ p, s.getters[i]? = some (.adding p) → ∀ prof,
      s.map.profileObjects.find? p = some prof → s.map.profiles.get prof.name = none
  | _ => True

-- ---------------------------------------------------------------------------
-- What the calls do to the profiles
-- ---------------------------------------------------------------------------

/-- Profiles are registered and not taken back, and devices point to registered ones. -/
structure ProfilesGrow (map map' : Devmap) : Prop where
  size : map.profileObjects.size ≤ map'.profileObjects.size
  kept : ProfilesKept map.profileObjects map'.profileObjects
  registered : ∀ {n p}, map.profiles.get n = some p → map'.profiles.get n = some p
  new : ∀ {n p}, map'.profiles.get n = some p → map.profiles.get n = some p ∨
    map.profileObjects.size ≤ p ∧ ∃ prof, map'.profileObjects.find? p = some prof ∧ prof.name = n
  live : ∀ {p prof}, map'.profileObjects.find? p = some prof →
    (∃ q, map.profileObjects.find? p = some q) ∨ ∃ n, map'.profiles.get n = some p
  device : ∀ {a d}, map'.objects.find? a = some d →
    (∃ e, map.objects.find? a = some e ∧ e.profile = d.profile) ∨
      ∃ n, map'.profiles.get n = some d.profile

theorem ProfilesGrow.refl (map : Devmap) : ProfilesGrow map map where
  size := Nat.le_refl _
  kept := .refl _
  registered h := h
  new h := .inl h
  live h := .inl ⟨_, h⟩
  device h := .inl ⟨_, h, rfl⟩

theorem ProfilesGrow.trans {map map' map'' : Devmap} (h : ProfilesGrow map map')
    (h' : ProfilesGrow map' map'') : ProfilesGrow map map'' where
  size := Nat.le_trans h.size h'.size
  kept := h.kept.trans h'.kept
  registered hn := h'.registered (h.registered hn)
  new hn := by
    rcases h'.new hn with hn | ⟨hle, hnew⟩
    · rcases h.new hn with hn | ⟨hle, prof, hprof, hname⟩
      · exact .inl hn
      · obtain ⟨q, hq, hsame⟩ := h'.kept hprof
        exact .inr ⟨hle, q, hq, hsame.name_eq.trans hname⟩
    · exact .inr ⟨Nat.le_trans h.size hle, hnew⟩
  live hp := by
    rcases h'.live hp with ⟨q, hq⟩ | hreg
    · rcases h.live hq with hlive | ⟨n, hn⟩
      · exact .inl hlive
      · exact .inr ⟨n, h'.registered hn⟩
    · exact .inr hreg
  device hd := by
    rcases h'.device hd with ⟨e, he, hprofile⟩ | hreg
    · rcases h.device he with ⟨f, hf, hprofile'⟩ | ⟨n, hn⟩
      · exact .inl ⟨f, hf, hprofile'.trans hprofile⟩
      · exact .inr ⟨n, hprofile ▸ h'.registered hn⟩
    · exact .inr hreg

section Calls

variable {map map' : Devmap}

/-- A change that leaves the profiles alone, and what each device points to. -/
theorem ProfilesGrow.of_objects (hprofiles : map'.profiles = map.profiles)
    (hobjects : map'.profileObjects = map.profileObjects)
    (hdevice : ∀ {a d}, map'.objects.find? a = some d →
      ∃ e, map.objects.find? a = some e ∧ e.profile = d.profile) : ProfilesGrow map map' where
  size := by rw [hobjects]
  kept := by
    rw [hobjects]
    exact .refl _
  registered h := by rw [hprofiles, h]
  new h := .inl (by rw [← hprofiles, h])
  live h := .inl ⟨_, by rw [← hobjects, h]⟩
  device h := .inl (hdevice h)

theorem shareProfile_grows {profile : DeviceProfile} {pp : ObjAddr}
    (h : map.shareProfile profile = (pp, map')) :
    ProfilesGrow map map' ∧ map'.profiles.get profile.name = some pp := by
  unfold shareProfile at h
  cases hget : map.profiles.get profile.name with
  | some q =>
    simp only [hget] at h
    cases h
    exact ⟨.refl _, hget⟩
  | none =>
    simp only [hget] at h
    cases h
    refine ⟨?_, by rw [HashMap.get_set, if_pos rfl]⟩
    exact {
      size := by
        rw [Store.size_alloc]
        exact Nat.le_succ _
      kept := fun a p hp => ⟨p, Store.find?_alloc_of_some hp, .refl p⟩
      registered := by
        intro n p hn
        rw [HashMap.get_set, if_neg, hn]
        rintro rfl
        rw [hget] at hn
        cases hn
      new := by
        intro n p hn
        rw [HashMap.get_set] at hn
        split at hn
        · next hname =>
          cases hn
          exact .inr ⟨Nat.le_refl _, profile, by rw [Store.find?_alloc, if_pos rfl], hname.symm⟩
        · exact .inl hn
      live := by
        intro p prof hp
        rw [Store.find?_alloc] at hp
        split at hp
        · next heq => exact .inr ⟨profile.name, by rw [HashMap.get_set, if_pos rfl, heq]⟩
        · exact .inl ⟨prof, hp⟩
      device := fun hd => .inl ⟨_, hd, rfl⟩ }

theorem addLocked_grows {d : Device} (h : map.addLocked d = .ok map') :
    ProfilesGrow map map' := by
  obtain ⟨p, pp, m, prof, prof', -, hshare, hprof, hstart, rfl⟩ := addLocked_parts h
  obtain ⟨hgrow, hget⟩ := shareProfile_grows hshare
  have hkept := ProfilesKept.write hprof (autoeventStart_sameProfile hstart)
  refine hgrow.trans ?_
  exact {
    size := by rw [Store.size_write]
    kept := hkept
    registered := fun hn => hn
    new := fun hn => .inl hn
    live := by
      intro a q hq
      rw [Store.find?_write hprof] at hq
      split at hq
      · next heq =>
        subst heq
        exact .inl ⟨prof, hprof⟩
      · exact .inl ⟨q, hq⟩
    device := by
      intro a e he
      rw [Store.find?_alloc] at he
      split at he
      · cases he
        exact .inr ⟨_, hget⟩
      · exact .inl ⟨e, he, rfl⟩ }

theorem release_grows {a : ObjAddr} (h : map.release a = .ok map') : ProfilesGrow map map' := by
  obtain ⟨d, hd, ⟨-, rfl⟩ | ⟨-, rfl⟩⟩ := release_eq_ok h
  · refine .of_objects rfl rfl fun {b e} he => ?_
    rw [Store.find?_free] at he
    split at he
    · cases he
    · exact ⟨e, he, rfl⟩
  · refine .of_objects rfl rfl fun {b e} he => ?_
    rw [Store.find?_write hd] at he
    split at he
    · next heq =>
      cases he
      exact ⟨d, heq ▸ hd, rfl⟩
    · exact ⟨e, he, rfl⟩

theorem removeLocked_grows {a : ObjAddr} (h : map.removeLocked a = .ok map') :
    ProfilesGrow map map' := by
  obtain ⟨d, -, hrelease⟩ := removeLocked_eq_ok h
  have hgrow : ProfilesGrow map { map with
      nameToId := map.nameToId.remove d.name, devices := map.devices.remove d.id } :=
    .of_objects rfl rfl fun {b e} he => ⟨e, he, rfl⟩
  exact hgrow.trans (release_grows hrelease)

theorem updateInPlace_grows {a : ObjAddr} {src : Device} {done : Bool}
    (h : map.updateInPlace a src = .ok (done, map')) : ProfilesGrow map map' := by
  obtain ⟨d, hd, ⟨-, rfl⟩ | ⟨-, -, rfl⟩⟩ := updateInPlace_eq_ok h
  · exact .refl _
  · refine .of_objects rfl rfl fun {b e} he => ?_
    rw [Store.find?_write hd] at he
    split at he
    · next heq =>
      cases he
      exact ⟨d, heq ▸ hd, rfl⟩
    · exact ⟨e, he, rfl⟩

theorem populateDevices_grows {devs : List Device} (h : map.populateDevices devs = .ok map') :
    ProfilesGrow map map' := by
  induction devs generalizing map with
  | nil =>
    cases h
    exact .refl _
  | cons d devs ih =>
    obtain ⟨m, hpop, h⟩ := Checked.bind_eq_ok.mp h
    refine ProfilesGrow.trans ?_ (ih h)
    unfold populateDevice at hpop
    split at hpop
    · cases hpop
      exact .refl _
    · exact addLocked_grows hpop

theorem call_grows {c : Call} (h : map.call c = .ok map') : ProfilesGrow map map' := by
  cases c with
  | populate devs => exact populateDevices_grows h
  | replace dev =>
    obtain ⟨⟨add, m⟩, hold, h⟩ := Checked.bind_eq_ok.mp h
    have hgrow : ProfilesGrow map m := by
      rcases replaceOld_eq_ok hold with ⟨-, -, rfl⟩ | ⟨a, -, ⟨-, hupdate⟩ | ⟨-, -, hremove⟩⟩
      · exact .refl _
      · exact updateInPlace_grows hupdate
      · exact removeLocked_grows hremove
    dsimp only at h
    split at h
    · exact hgrow.trans (addLocked_grows h)
    · cases h
      exact hgrow
  | removeByname name =>
    rcases removedeviceByname_eq_ok h with rfl | ⟨a, -, hremove⟩
    · exact .refl _
    · exact removeLocked_grows hremove
  | removeByid id =>
    obtain ⟨a, -, hremove⟩ := removedeviceByid_eq_ok h
    exact removeLocked_grows hremove

end Calls

-- ---------------------------------------------------------------------------
-- The invariant
-- ---------------------------------------------------------------------------

/-- Every profile object has one owner: the name it is registered under, or the thread that has just
fetched it. -/
structure ProfileUse.Inv (s : ProfileUse) : Prop where
  registered : ∀ {n p}, s.map.profiles.get n = some p →
    ∃ prof, s.map.profileObjects.find? p = some prof ∧ prof.name = n
  device : ∀ {a d}, s.map.objects.find? a = some d →
    ∃ n, s.map.profiles.get n = some d.profile
  live : ∀ {p prof}, s.map.profileObjects.find? p = some prof →
    (∃ n, s.map.profiles.get n = some p) ∨ .adding p ∈ s.getters
  adding : ∀ {p}, .adding p ∈ s.getters →
    (∃ prof, s.map.profileObjects.find? p = some prof) ∧ ∀ n, s.map.profiles.get n ≠ some p
  once : ∀ p, s.getters.count (.adding p) ≤ 1
  returned : ∀ p ∈ s.returned, ∃ n, s.map.profiles.get n = some p

theorem ProfileUse.inv_init : ProfileUse.init.Inv where
  registered h := nomatch h
  device h := nomatch h
  live h := nomatch h
  adding h := nomatch h
  once _ := Nat.zero_le _
  returned _ h := nomatch h

section Steps

variable {s s' : ProfileUse}

theorem ProfileUse.Inv.call {c : Call} (h : s.Inv)
    (hstep : profileStep s (.call c) = some s') : s'.Inv := by
  obtain ⟨map', hmap, rfl⟩ := Option.map_eq_some_iff.mp hstep
  have hgrow : ProfilesGrow s.map map' := call_grows (Checked.toOption_eq_some.mp hmap)
  exact {
    registered := by
      intro n p hn
      rcases hgrow.new hn with hn | ⟨-, hnew⟩
      · obtain ⟨prof, hprof, hname⟩ := h.registered hn
        obtain ⟨q, hq, hsame⟩ := hgrow.kept hprof
        exact ⟨q, hq, hsame.name_eq.trans hname⟩
      · exact hnew
    device := by
      intro a d hd
      rcases hgrow.device hd with ⟨e, he, hprofile⟩ | hreg
      · obtain ⟨n, hn⟩ := h.device he
        exact ⟨n, hprofile ▸ hgrow.registered hn⟩
      · exact hreg
    live := by
      intro p prof hp
      rcases hgrow.live hp with ⟨q, hq⟩ | hreg
      · rcases h.live hq with ⟨n, hn⟩ | hadding
        · exact .inl ⟨n, hgrow.registered hn⟩
        · exact .inr hadding
      · exact .inl hreg
    adding := by
      intro p hp
      obtain ⟨⟨prof, hprof⟩, hnot⟩ := h.adding hp
      obtain ⟨q, hq, -⟩ := hgrow.kept hprof
      refine ⟨⟨q, hq⟩, fun n hn => ?_⟩
      rcases hgrow.new hn with hn | ⟨hle, -⟩
      · exact hnot n hn
      · exact absurd (Store.lt_size hprof) (Nat.not_lt.mpr hle)
    once := h.once
    returned := by
      intro p hp
      obtain ⟨n, hn⟩ := h.returned p hp
      exact ⟨n, hgrow.registered hn⟩ }

theorem ProfileUse.Inv.lookup {name : Text} (h : s.Inv)
    (hstep : profileStep s (.lookup name) = some s') : s'.Inv := by
  simp only [profileStep] at hstep
  cases hget : s.map.profiles.get name with
  | some dp =>
    simp only [hget] at hstep
    cases hstep
    exact { h with
      returned := by
        intro p hp
        rcases List.mem_cons.mp hp with rfl | hp
        · exact ⟨name, hget⟩
        · exact h.returned p hp }
  | none =>
    simp only [hget] at hstep
    cases hstep
    have hmem (p : ObjAddr) : Getter.adding p ∈ s.getters ++ [Getter.fetching name] ↔
        Getter.adding p ∈ s.getters := by
      simp
    exact { h with
      live := by
        intro p prof hp
        rw [hmem]
        exact h.live hp
      adding := fun hp => h.adding ((hmem _).mp hp)
      once := by
        intro p
        rw [List.count_append]
        simpa using h.once p }

section Getters

variable {i : Nat} {name : Text} {newdp : ObjAddr} {prof : DeviceProfile}

/-- Metadata has no answer, and the getter is done. -/
theorem ProfileUse.Inv.unanswered (h : s.Inv) (hg : s.getters[i]? = some (.fetching name)) :
    ProfileUse.Inv { s with getters := s.getters.set i .done } := by
  have hcount (p : ObjAddr) : (s.getters.set i .done).count (.adding p) =
      s.getters.count (.adding p) := Machine.count_set_add hg .done (.adding p)
  have hmem (p : ObjAddr) : Getter.adding p ∈ s.getters.set i .done ↔
      Getter.adding p ∈ s.getters := by
    rw [← List.count_pos_iff, hcount, List.count_pos_iff]
  exact { h with
    live := by
      intro p prof hp
      rw [hmem]
      exact h.live hp
    adding := fun hp => h.adding ((hmem _).mp hp)
    once := by
      intro p
      rw [hcount]
      exact h.once p }

/-- The fetched profile is a new object that no name leads to. -/
theorem ProfileUse.Inv.fetched (h : s.Inv) (hg : s.getters[i]? = some (.fetching name))
    (newdp : DeviceProfile) :
    ProfileUse.Inv { s with
      map := { s.map with profileObjects := s.map.profileObjects.alloc newdp }
      getters := s.getters.set i (.adding s.map.profileObjects.size) } := by
  have hcount (p : ObjAddr) :=
    Machine.count_set_add hg (.adding s.map.profileObjects.size) (.adding p)
  simp only [reduceCtorEq, if_false, Nat.add_zero, Getter.adding.injEq] at hcount
  have hfresh : s.getters.count (.adding s.map.profileObjects.size) = 0 := by
    rw [List.count_eq_zero]
    intro hmem
    obtain ⟨⟨prof, hprof⟩, -⟩ := h.adding hmem
    rw [Store.find?_size] at hprof
    cases hprof
  have hmem (p : ObjAddr) :
      Getter.adding p ∈ s.getters.set i (.adding s.map.profileObjects.size) ↔
        Getter.adding p ∈ s.getters ∨ p = s.map.profileObjects.size := by
    rw [← List.count_pos_iff, hcount, ← List.count_pos_iff]
    by_cases hp : s.map.profileObjects.size = p
    · simp [hp]
    · simp [hp, Ne.symm hp]
  have hunused (n : Text) : s.map.profiles.get n ≠ some s.map.profileObjects.size := by
    intro hn
    obtain ⟨prof, hprof, -⟩ := h.registered hn
    rw [Store.find?_size] at hprof
    cases hprof
  exact {
    registered := by
      intro n p hn
      obtain ⟨prof, hprof, hname⟩ := h.registered hn
      exact ⟨prof, Store.find?_alloc_of_some hprof, hname⟩
    device := h.device
    live := by
      intro p prof hp
      rw [hmem]
      rw [Store.find?_alloc] at hp
      split at hp
      · next heq => exact .inr (.inr heq)
      · exact (h.live hp).imp_right .inl
    adding := by
      intro p hp
      rcases (hmem p).mp hp with hold | rfl
      · obtain ⟨⟨prof, hprof⟩, hnot⟩ := h.adding hold
        exact ⟨⟨prof, Store.find?_alloc_of_some hprof⟩, hnot⟩
      · exact ⟨⟨newdp, by rw [Store.find?_alloc, if_pos rfl]⟩, hunused⟩
    once := by
      intro p
      rw [hcount]
      have honce := h.once p
      split
      · next heq =>
        rw [← heq, hfresh]
      · exact honce
    returned := h.returned }

/-- The getter that registers its profile is the only one with it. -/
theorem ProfileUse.Inv.adding_set_done (h : s.Inv) (hg : s.getters[i]? = some (.adding newdp))
    (p : ObjAddr) :
    Getter.adding p ∈ s.getters.set i .done ↔ Getter.adding p ∈ s.getters ∧ newdp ≠ p := by
  have hcount := Machine.count_set_add hg .done (.adding p)
  simp only [reduceCtorEq, if_false, Nat.add_zero, Getter.adding.injEq] at hcount
  have honce := h.once p
  rw [← List.count_pos_iff, ← List.count_pos_iff]
  by_cases hp : newdp = p
  · rw [if_pos hp] at hcount
    constructor
    · omega
    · exact fun hand => absurd hp hand.2
  · rw [if_neg hp, Nat.add_zero] at hcount
    rw [hcount]
    exact ⟨fun hpos => ⟨hpos, hp⟩, And.left⟩

/-- A profile is registered under a name that was free. -/
theorem ProfileUse.Inv.added (h : s.Inv) (hg : s.getters[i]? = some (.adding newdp))
    (hprof : s.map.profileObjects.find? newdp = some prof)
    (hfree : s.map.profiles.get prof.name = none) :
    ProfileUse.Inv ⟨{ s.map with profiles := s.map.profiles.set prof.name newdp },
      s.getters.set i .done, newdp :: s.returned⟩ := by
  have hmem := h.adding_set_done hg
  have hkept {n : Text} {p : ObjAddr} (hn : s.map.profiles.get n = some p) :
      (s.map.profiles.set prof.name newdp).get n = some p := by
    rw [HashMap.get_set, if_neg, hn]
    rintro rfl
    rw [hfree] at hn
    cases hn
  have hnew : (s.map.profiles.set prof.name newdp).get prof.name = some newdp := by
    rw [HashMap.get_set, if_pos rfl]
  exact {
    registered := by
      intro n p hn
      rw [HashMap.get_set] at hn
      split at hn
      · next hname =>
        cases hn
        exact ⟨prof, hprof, hname.symm⟩
      · exact h.registered hn
    device := by
      intro a d hd
      obtain ⟨n, hn⟩ := h.device hd
      exact ⟨n, hkept hn⟩
    live := by
      intro p q hq
      rcases h.live hq with ⟨n, hn⟩ | hadding
      · exact .inl ⟨n, hkept hn⟩
      · by_cases hp : newdp = p
        · exact .inl ⟨prof.name, hp ▸ hnew⟩
        · exact .inr ((hmem p).mpr ⟨hadding, hp⟩)
    adding := by
      intro p hp
      obtain ⟨hold, hne⟩ := (hmem p).mp hp
      obtain ⟨hlive, hnot⟩ := h.adding hold
      refine ⟨hlive, fun n hn => ?_⟩
      rw [HashMap.get_set] at hn
      split at hn
      · exact hne (Option.some.inj hn)
      · exact hnot n hn
    once := by
      intro p
      have hcount := Machine.count_set_add hg .done (.adding p)
      have honce := h.once p
      simp only [reduceCtorEq, if_false] at hcount
      dsimp only
      omega
    returned := by
      intro p hp
      rcases List.mem_cons.mp hp with rfl | hp
      · exact ⟨prof.name, hnew⟩
      · obtain ⟨n, hn⟩ := h.returned p hp
        exact ⟨n, hkept hn⟩ }

end Getters

theorem ProfileUse.Inv.fetch {i : Nat} {answer : Option DeviceProfile} (h : s.Inv)
    (hstep : profileStep s (.fetch i answer) = some s') : s'.Inv := by
  simp only [profileStep] at hstep
  cases hg : s.getters[i]? with
  | none =>
    simp only [hg] at hstep
    cases hstep
  | some g =>
    simp only [hg] at hstep
    cases g with
    | adding | done => cases hstep
    | fetching name =>
      cases answer with
      | none =>
        cases hstep
        exact h.unanswered hg
      | some newdp =>
        cases hstep
        exact h.fetched hg newdp

theorem ProfileUse.Inv.add {i : Nat} (h : s.Inv) (hnew : RegistersNew s (.add i))
    (hstep : profileStep s (.add i) = some s') : s'.Inv := by
  simp only [profileStep] at hstep
  cases hg : s.getters[i]? with
  | none =>
    simp only [hg] at hstep
    cases hstep
  | some g =>
    simp only [hg] at hstep
    cases g with
    | fetching | done => cases hstep
    | adding newdp =>
      obtain ⟨⟨prof, hprof⟩, -⟩ := h.adding (List.mem_of_getElem? hg)
      have hadd : s.map.addProfile newdp =
          .ok { s.map with profiles := s.map.profiles.set prof.name newdp } := by
        rw [addProfile, Store.read_eq_ok.mpr hprof]
        rfl
      simp only [hadd, Except.toOption, Option.map_some, Option.some.injEq] at hstep
      subst hstep
      exact h.added hg hprof (hnew newdp hg prof hprof)

theorem ProfileUse.Inv.step {a : ProfileAction} (h : s.Inv) (hnew : RegistersNew s a)
    (hstep : profileStep s a = some s') : s'.Inv := by
  cases a with
  | call c => exact h.call hstep
  | lookup name => exact h.lookup hstep
  | fetch i answer => exact h.fetch hstep
  | add i => exact h.add hnew hstep

end Steps

-- ---------------------------------------------------------------------------
-- Freeing
-- ---------------------------------------------------------------------------

/-- Freeing live objects with distinct addresses, one after the other. -/
theorem foldlM_free {ps : List (Text × ObjAddr)} {st : Store DeviceProfile}
    (hnodup : (ps.map Prod.snd).Nodup) (hlive : ∀ p ∈ ps, ∃ v, st.find? p.2 = some v) :
    ∃ st', ps.foldlM (fun st p => do
        let _ ← st.read p.2
        return st.free p.2) st = Except.ok st' ∧
      ∀ a, st'.find? a = if a ∈ ps.map Prod.snd then none else st.find? a := by
  induction ps generalizing st with
  | nil => exact ⟨st, rfl, fun a => by simp⟩
  | cons p ps ih =>
    rw [List.map_cons, List.nodup_cons] at hnodup
    rw [List.forall_mem_cons] at hlive
    obtain ⟨⟨v, hv⟩, hrest⟩ := hlive
    have hrest' : ∀ q ∈ ps, ∃ w, (st.free p.2).find? q.2 = some w := by
      intro q hq
      have hne : q.2 ≠ p.2 := fun heq => hnodup.1 (heq ▸ List.mem_map_of_mem hq)
      rw [Store.find?_free, if_neg hne]
      exact hrest q hq
    obtain ⟨st', hst', hfind⟩ := ih hnodup.2 hrest'
    refine ⟨st', ?_, fun a => ?_⟩
    · rw [List.foldlM_cons, Store.read_eq_ok.mpr hv]
      exact hst'
    · rw [hfind, Store.find?_free]
      by_cases ha : a = p.2
      · simp [ha]
      · simp only [List.map_cons, List.mem_cons, ha, false_or, if_false]

/-- Nobody is between fetching and registering: then the registered profiles are all there are, and
each is registered once. -/
theorem ProfileUse.Inv.freed {s : ProfileUse} (h : s.Inv)
    (hnone : ∀ p, .adding p ∉ s.getters) :
    ∃ st, s.map.freeProfiles = .ok st ∧ ∀ p, st.find? p = none := by
  have hkeys : (s.map.profiles.entries.map Prod.fst).Nodup := s.map.profiles.placed.flatten_nodup
  have hsame : ∀ p ∈ s.map.profiles.entries, ∀ q ∈ s.map.profiles.entries, p.2 = q.2 → p = q := by
    rintro ⟨n, p⟩ hp ⟨m, q⟩ hq heq
    obtain rfl : p = q := heq
    obtain ⟨prof, hprof, hn⟩ := h.registered (HashMap.mem_entries.mp hp)
    obtain ⟨prof', hprof', hm⟩ := h.registered (HashMap.mem_entries.mp hq)
    cases hprof.symm.trans hprof'
    rw [← hn, ← hm]
  have hnodup : (s.map.profiles.entries.map Prod.snd).Nodup :=
    List.Nodup.map_on hsame hkeys.of_map
  have hlive : ∀ p ∈ s.map.profiles.entries, ∃ v, s.map.profileObjects.find? p.2 = some v := by
    rintro ⟨n, p⟩ hp
    obtain ⟨prof, hprof, -⟩ := h.registered (HashMap.mem_entries.mp hp)
    exact ⟨prof, hprof⟩
  obtain ⟨st, hst, hfind⟩ := foldlM_free hnodup hlive
  refine ⟨st, hst, fun p => ?_⟩
  rw [hfind]
  split
  · rfl
  · next hout =>
    -- an object that is left would be registered, and so have been in the list
    apply Option.eq_none_iff_forall_ne_some.mpr
    intro prof hprof
    rcases h.live hprof with ⟨n, hn⟩ | hadding
    · exact hout (List.mem_map.mpr ⟨(n, p), HashMap.mem_entries.mpr hn, rfl⟩)
    · exact hnone p hadding

theorem ProfileUse.Inv.shared {s : ProfileUse} (h : s.Inv) : ProfilesShared s where
  device := by
    rintro a d ⟨id, -, hd⟩
    obtain ⟨n, hn⟩ := h.device hd
    obtain ⟨prof, hprof, rfl⟩ := h.registered hn
    exact ⟨prof, hprof, hn⟩
  returned := by
    intro p hp
    obtain ⟨n, hn⟩ := h.returned p hp
    obtain ⟨prof, hprof, rfl⟩ := h.registered hn
    exact ⟨prof, hprof, hn⟩
  freed := h.freed

/-- When metadata's answers are only registered under names that are free then, the devices and the
callers share the registered profiles throughout, and each profile is freed once at the end. -/
theorem profiles_shared {as : List ProfileAction} {s : ProfileUse}
    (hguard : Machine.Guarded profileStep RegistersNew .init as)
    (hrun : Machine.run profileStep .init as = some s) : ProfilesShared s := by
  have hstep : ∀ {t a t'}, ProfileUse.Inv t → RegistersNew t a → profileStep t a = some t' →
      ProfileUse.Inv t' := fun h hnew hstep => h.step hnew hstep
  exact (hguard.invariant hstep hrun ProfileUse.inv_init).shared

/-! ### A plug -/

/-- A plug is added, then its profile is asked for. -/
def plugShares : List ProfileAction :=
  [.call (.replace (plug (lit "1") (lit "Plug"))), .lookup plugProfile.name]

/-- The profile of a plug is asked for and fetched; before it is registered, the plug is added. -/
def plugRaces : List ProfileAction :=
  [.lookup plugProfile.name, .fetch 0 (some plugProfile),
    .call (.replace (plug (lit "1") (lit "Plug"))), .add 0]

theorem plugShares_shared :
    ∃ s, Machine.run profileStep .init plugShares = some s ∧ ProfilesShared s := by
  have hguard : Machine.Guarded profileStep RegistersNew .init plugShares :=
    ⟨trivial, fun _ _ => ⟨trivial, fun _ _ => trivial⟩⟩
  have hsome : (Machine.run profileStep .init plugShares).isSome := by decide +kernel
  obtain ⟨s, hrun⟩ := Option.isSome_iff_exists.mp hsome
  exact ⟨s, hrun, profiles_shared hguard hrun⟩

/-- The plug points to a profile that is no longer registered, and is never freed. -/
theorem plugRaces_unshared :
    ∃ s, Machine.run profileStep .init plugRaces = some s ∧ ¬ ProfilesShared s := by
  have hlost : (Machine.run profileStep .init plugRaces).map (fun s =>
      (s.map.devices.get (lit "1"), (s.map.objects.find? 0).map fun d => d.profile,
        (s.map.profileObjects.find? 1).map fun prof => s.map.profiles.get prof.name)) =
      some (some 0, some 1, some (some 0)) := by
    decide +kernel
  obtain ⟨s, hrun, hs⟩ := Option.map_eq_some_iff.mp hlost
  simp only [Prod.mk.injEq] at hs
  obtain ⟨hdev, hobj, hprof⟩ := hs
  obtain ⟨d, hd, hpp⟩ := Option.map_eq_some_iff.mp hobj
  refine ⟨s, hrun, fun hshared => ?_⟩
  obtain ⟨prof, hfind, hget⟩ := hshared.device 0 d ⟨lit "1", hdev, hd⟩
  rw [hpp] at hfind hget
  rw [hfind, Option.map_some, hget] at hprof
  exact absurd (Option.some.inj (Option.some.inj hprof)) (by decide)

end Devmap

end Zigbee
