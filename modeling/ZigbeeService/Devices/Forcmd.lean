-- SUMMARY: Commands for all devices: which devices are listed, with which command, and what becomes of their counts (devmap.c).
import ZigbeeService.Devices.Reachable

/-!
# Commands for all devices

`edgex_devmap_device_forcmd` walks over the devices of the map. The table of a profile may be built
on the way; the answers of `edgex_deviceprofile_findcommand` are those it gives before the walk.
-/

namespace Zigbee

open CLib

namespace Devmap

-- ---------------------------------------------------------------------------
-- The function
-- ---------------------------------------------------------------------------

theorem findCommand_devices {map map' : Devmap} {cmd : Text} {forGet : Bool} {dev : ObjAddr}
    {command : Option CmdInfo} (h : map.findCommand cmd forGet dev = .ok (command, map')) :
    map'.devices = map.devices := by
  obtain ⟨st, -, rfl⟩ := findCommand_eq_ok h
  rfl

/-- A round leaves the devices in place, and fewer of them to visit. -/
theorem forcmdRound_advances {map map' : Devmap} {cmd : Text} {forGet : Bool} {iter iter' : Iter}
    {q : Option (ObjAddr × CmdInfo)}
    (h : map.forcmdRound cmd forGet iter = .ok (some (iter', q), map')) :
    map'.devices = map.devices ∧
      (map'.devices.remaining iter').length < (map.devices.remaining iter).length := by
  unfold forcmdRound at h
  rcases HashMap.next_cases map.devices iter with ⟨hnext, -⟩ | ⟨key, v, iter₁, hnext, hremaining⟩
  · simp only [hnext] at h
    cases h
  · have hdevices : map'.devices = map.devices ∧ iter' = iter₁ := by
      simp only [hnext] at h
      split at h
      · cases h
      · obtain ⟨⟨command, m⟩, hfind, h⟩ := Checked.bind_eq_ok.mp h
        have hm := findCommand_devices hfind
        cases command with
        | none =>
          cases h
          exact ⟨hm, rfl⟩
        | some command =>
          obtain ⟨m', hretain, h⟩ := Checked.bind_eq_ok.mp h
          cases h
          obtain ⟨d, -, rfl⟩ := retain_eq_ok hretain
          exact ⟨hm, rfl⟩
    rw [hdevices.1, hdevices.2, hremaining, List.length_cons]
    exact ⟨rfl, Nat.lt_succ_self _⟩

/-- The loop of `edgex_devmap_device_forcmd`. -/
def forcmdLoop (map : Devmap) (cmd : Text) (forGet : Bool) (iter : Iter)
    (result : List (ObjAddr × CmdInfo)) : Checked (List (ObjAddr × CmdInfo) × Devmap) :=
  match _h : map.forcmdRound cmd forGet iter with
  | .error e => .error e
  | .ok (none, map) => .ok (result, map)
  | .ok (some (iter, none), map) => map.forcmdLoop cmd forGet iter result
  | .ok (some (iter, some q), map) => map.forcmdLoop cmd forGet iter (q :: result)
termination_by (map.devices.remaining iter).length
decreasing_by
  · exact (forcmdRound_advances _h).2
  · exact (forcmdRound_advances _h).2

theorem forcmdLoop_step (map : Devmap) (cmd : Text) (forGet : Bool) (iter : Iter)
    (result : List (ObjAddr × CmdInfo)) :
    map.forcmdLoop cmd forGet iter result = (map.forcmdRound cmd forGet iter >>= fun r =>
      match r with
      | (none, map) => .ok (result, map)
      | (some (iter, q), map) => map.forcmdLoop cmd forGet iter (q.toList ++ result)) := by
  rw [forcmdLoop]
  split
  · next hround =>
    rw [hround]
    rfl
  · next hround =>
    rw [hround]
    rfl
  · next hround =>
    rw [hround]
    rfl
  · next hround =>
    rw [hround]
    rfl

/-- `edgex_devmap_device_forcmd`, while no other call has the map. -/
def deviceForcmd (map : Devmap) (cmd : Text) (forGet : Bool) :
    Checked (List (ObjAddr × CmdInfo) × Devmap) :=
  map.forcmdLoop cmd forGet (HashMap.iter _ _) []

/-- A step of the only reading call. -/
theorem read_cons {map map' : Devmap} {r r' : Reader} {dev : Option ObjAddr}
    {borrows : List ObjAddr} {as : List Action} (hr : r ≠ .done)
    (h : r.step map = .ok (r', dev, map')) :
    Machine.run (Machine.checked threadsStep) (.ok ⟨map, .reading [r], borrows⟩) (.read 0 :: as) =
      Machine.run (Machine.checked threadsStep)
        (.ok ⟨map', .reading [r'], dev.toList ++ borrows⟩) as := by
  have hstep : Machine.checked threadsStep (.ok ⟨map, .reading [r], borrows⟩) (.read 0) =
      some (.ok ⟨map', .reading [r'], dev.toList ++ borrows⟩) := by
    cases r with
    | done => exact absurd rfl hr
    | byid id => simp [Machine.checked, threadsStep, h]
    | byname name => simp [Machine.checked, threadsStep, h]
    | forcmd cmd forGet iter result => simp [Machine.checked, threadsStep, h]
  rw [Machine.run, hstep]
  rfl

/-- A thread that runs the loop undisturbed does what `edgex_devmap_device_forcmd` does, and has
then borrowed what is in its queue. -/
theorem reading_eq_forcmdLoop {map map' : Devmap} {cmd : Text} {forGet : Bool} {iter : Iter}
    {result result' : List (ObjAddr × CmdInfo)} (borrows : List ObjAddr)
    (h : map.forcmdLoop cmd forGet iter result = .ok (result', map')) :
    ∃ n queue, result' = queue ++ result ∧
      Machine.run (Machine.checked threadsStep)
          (.ok ⟨map, .reading [.forcmd cmd forGet iter result], borrows⟩)
          (List.replicate n (.read 0)) =
        some (.ok ⟨map', .reading [], queue.map Prod.fst ++ borrows⟩) := by
  induction hleft : (map.devices.remaining iter).length using Nat.strong_induction_on
    generalizing borrows map iter result with
  | _ left ih =>
    rw [forcmdLoop_step] at h
    obtain ⟨⟨visited, m⟩, hround, h⟩ := Checked.bind_eq_ok.mp h
    cases visited with
    | none =>
      cases h
      have hstep : (Reader.forcmd cmd forGet iter result').step map = .ok (.done, none, map') := by
        rw [Reader.step, hround]
        rfl
      exact ⟨2, [], rfl, read_cons (by simp) hstep⟩
    | some visit =>
      obtain ⟨iter', q⟩ := visit
      have hstep : (Reader.forcmd cmd forGet iter result).step map =
          .ok (.forcmd cmd forGet iter' (q.toList ++ result), q.map Prod.fst, m) := by
        rw [Reader.step, hround]
        cases q with
        | none => rfl
        | some q => rfl
      have hless := (forcmdRound_advances hround).2
      rw [hleft] at hless
      obtain ⟨n, queue, hqueue, hrun⟩ := ih _ hless _ h rfl
      refine ⟨n + 1, queue ++ q.toList, by rw [hqueue, List.append_assoc], ?_⟩
      rw [List.replicate_succ, read_cons (by simp) hstep, hrun, List.map_append, List.append_assoc]
      cases q with
      | none => rfl
      | some q => rfl

-- ---------------------------------------------------------------------------
-- Specification
-- ---------------------------------------------------------------------------

/-- The command that `edgex_deviceprofile_findcommand` gives for a device that is enabled and
unlocked. -/
def CommandOf (map : Devmap) (cmd : Text) (forGet : Bool) (dev : ObjAddr) (command : CmdInfo) :
    Prop :=
  ∃ d prof prof', map.objects.find? dev = some d ∧ d.operatingState = .enabled ∧
    d.adminState = .unlocked ∧ map.profileObjects.find? d.profile = some prof ∧
    edgexDeviceprofileFindcommand cmd prof forGet = .ok (some command, prof')

/-- The devices of the map that have the command are listed, and one more reference is held to each.
Nothing else changes but that profiles may have their tables now. -/
structure ListsCommands (map : Devmap) (cmd : Text) (forGet : Bool)
    (result : List (ObjAddr × CmdInfo)) (map' : Devmap) : Prop where
  listed : ∀ dev command, (dev, command) ∈ result ↔
    (∃ id, map.devices.get id = some dev) ∧ map.CommandOf cmd forGet dev command
  once : (result.map Prod.fst).Nodup
  objects : ∀ dev, map'.objects.find? dev = (map.objects.find? dev).map fun d =>
    { d with refs := d.refs + if dev ∈ result.map Prod.fst then 1 else 0 }
  devices : map'.devices = map.devices
  nameToId : map'.nameToId = map.nameToId
  profiles : map'.profiles = map.profiles
  profileObjects : ∀ pp prof, map.profileObjects.find? pp = some prof →
    ∃ prof', map'.profileObjects.find? pp = some prof' ∧ SameProfile prof prof'

/-- Every device of the map that is enabled and unlocked has a profile whose table is there or can
be built. -/
def Searchable (map : Devmap) : Prop :=
  ∀ id dev d prof, map.devices.get id = some dev → map.objects.find? dev = some d →
    d.operatingState = .enabled → d.adminState = .unlocked →
    map.profileObjects.find? d.profile = some prof → prof.cmdinfo ≠ [] ∨ prof.OpsNamed

-- ---------------------------------------------------------------------------
-- Building a table
-- ---------------------------------------------------------------------------

section Tables

variable {p q : DeviceProfile} {name : Text} {forGet : Bool}

theorem infoForRes_returns {cmd : DeviceCommand} {info : CmdInfo}
    (h : infoForRes p cmd forGet = .ok info) :
    ∀ ro ∈ cmd.ops forGet, ∃ devres ∈ p.deviceResources, devres.name = ro.object := by
  obtain ⟨reqs, hreqs, -⟩ := Checked.bind_eq_ok.mp h
  intro ro hro
  obtain ⟨req, hreq⟩ := Checked.mapM_returns_iff.mp ⟨reqs, hreqs⟩ ro hro
  unfold requestForOp at hreq
  split at hreq
  · cases hreq
  · next devres hfind =>
    exact ⟨devres, List.mem_of_find?_eq_some hfind, by simpa using List.find?_some hfind⟩

theorem appendInfo_returns {cmd : DeviceCommand} {table table' : List CmdInfo}
    (h : appendInfo p cmd forGet table = .ok table') :
    ∀ ro ∈ cmd.ops forGet, ∃ devres ∈ p.deviceResources, devres.name = ro.object := by
  unfold appendInfo at h
  split at h
  · next hnone =>
    rw [hnone]
    exact List.forall_mem_nil _
  · obtain ⟨info, hinfo, -⟩ := Checked.bind_eq_ok.mp h
    exact infoForRes_returns hinfo

/-- A table is only built when every operation names a resource. -/
theorem appendCommands_returns {cmds : List DeviceCommand} {table table' : List CmdInfo}
    (h : appendCommands p cmds table = .ok table') :
    ∀ cmd ∈ cmds, ∀ ro ∈ cmd.set ++ cmd.get,
      ∃ devres ∈ p.deviceResources, devres.name = ro.object := by
  induction cmds generalizing table with
  | nil => exact List.forall_mem_nil _
  | cons cmd cmds ih =>
    obtain ⟨table₁, hget, h⟩ := Checked.bind_eq_ok.mp h
    obtain ⟨table₂, hset, h⟩ := Checked.bind_eq_ok.mp h
    rw [List.forall_mem_cons]
    refine ⟨fun ro hro => ?_, ih h⟩
    rcases List.mem_append.mp hro with hro | hro
    · exact appendInfo_returns hset ro hro
    · exact appendInfo_returns hget ro hro

theorem findcommand_returns_iff :
    (∃ r, edgexDeviceprofileFindcommand name p forGet = .ok r) ↔ p.cmdinfo ≠ [] ∨ p.OpsNamed := by
  constructor
  · rintro ⟨r, h⟩
    obtain ⟨q, hq, -⟩ := Checked.bind_eq_ok.mp h
    unfold ensureCmdInfo at hq
    split at hq
    · obtain ⟨table, htable, -⟩ := Checked.bind_eq_ok.mp hq
      exact .inr (appendCommands_returns htable)
    · exact .inl ‹_›
  · rintro (h | h)
    · unfold edgexDeviceprofileFindcommand ensureCmdInfo
      rw [if_neg h]
      exact ⟨_, rfl⟩
    · exact findcommand_ok name h forGet

/-- As the profile is, or with the table that a call builds. -/
def Ensured (p q : DeviceProfile) : Prop := q = p ∨ ensureCmdInfo p = .ok q

theorem Ensured.ensureCmdInfo_eq (h : Ensured p q) : ensureCmdInfo q = ensureCmdInfo p := by
  rcases h with rfl | h
  · rfl
  · by_cases hfresh : p.cmdinfo = []
    · have hpopulate := h
      rw [ensureCmdInfo, if_pos hfresh] at hpopulate
      obtain ⟨table, htable, hq⟩ := Checked.bind_eq_ok.mp hpopulate
      cases hq
      by_cases hempty : appendResources p p.deviceResources table = []
      · have hsame : { p with cmdinfo := appendResources p p.deviceResources table } = p := by
          rw [hempty, ← hfresh]
        rw [hsame]
      · rw [h, ensureCmdInfo, if_neg hempty]
        rfl
    · rw [ensureCmdInfo, if_neg hfresh] at h
      cases h
      rfl

/-- The answer does not depend on whether the table was built before. -/
theorem Ensured.findcommand_eq (h : Ensured p q) :
    edgexDeviceprofileFindcommand name q forGet = edgexDeviceprofileFindcommand name p forGet := by
  rw [edgexDeviceprofileFindcommand, h.ensureCmdInfo_eq, edgexDeviceprofileFindcommand]

theorem Ensured.sameProfile (h : Ensured p q) : SameProfile p q := by
  rcases h with rfl | h
  · exact .refl _
  · exact ensureCmdInfo_sameProfile h

theorem Ensured.findcommand {info : Option CmdInfo} {r : DeviceProfile} (h : Ensured p q)
    (hfind : edgexDeviceprofileFindcommand name q forGet = .ok (info, r)) : Ensured p r := by
  rw [h.findcommand_eq] at hfind
  obtain ⟨r', hr, hinfo⟩ := Checked.bind_eq_ok.mp hfind
  cases hinfo
  exact .inr hr

end Tables

-- ---------------------------------------------------------------------------
-- The walk
-- ---------------------------------------------------------------------------

section Walk

variable {map m m' : Devmap} {cmd : Text} {forGet : Bool} {dev : ObjAddr} {taken : List ObjAddr}
  {command : Option CmdInfo}

/-- The map in the course of a walk that has taken references to these devices. -/
structure Walked (map : Devmap) (taken : List ObjAddr) (m : Devmap) : Prop where
  devices : m.devices = map.devices
  nameToId : m.nameToId = map.nameToId
  profiles : m.profiles = map.profiles
  objects : ∀ dev, m.objects.find? dev =
    (map.objects.find? dev).map fun d => { d with refs := d.refs + taken.count dev }
  profileObjects : ∀ pp prof, map.profileObjects.find? pp = some prof →
    ∃ prof', m.profileObjects.find? pp = some prof' ∧ Ensured prof prof'
  dangling : ∀ pp, map.profileObjects.find? pp = none → m.profileObjects.find? pp = none

theorem Walked.refl (map : Devmap) : map.Walked [] map where
  devices := rfl
  nameToId := rfl
  profiles := rfl
  objects dev := by
    cases map.objects.find? dev with
    | none => rfl
    | some d => rfl
  profileObjects pp prof h := ⟨prof, h, .inl rfl⟩
  dangling _ h := h

/-- The command that is found for a device, if the search returns. -/
def foundCommand (map : Devmap) (cmd : Text) (forGet : Bool) (dev : ObjAddr) : Option CmdInfo :=
  match map.findCommand cmd forGet dev with
  | .ok (command, _) => command
  | .error _ => none

/-- In the course of the walk the same command is found as before it. -/
theorem Walked.findCommand (h : map.Walked taken m)
    (hfind : map.findCommand cmd forGet dev = .ok (command, m')) :
    ∃ m'', m.findCommand cmd forGet dev = .ok (command, m'') ∧ map.Walked taken m'' := by
  obtain ⟨d, hd, hfind⟩ := Checked.bind_eq_ok.mp hfind
  rw [Store.read_eq_ok] at hd
  have hread : m.objects.read dev = .ok { d with refs := d.refs + taken.count dev } := by
    rw [Store.read_eq_ok, h.objects, hd, Option.map_some]
  rw [Devmap.findCommand, hread, Checked.ok_bind]
  dsimp only
  split at hfind
  · next hactive =>
    obtain ⟨prof, hprof, hfind⟩ := Checked.bind_eq_ok.mp hfind
    obtain ⟨⟨info, p⟩, hcommand, hfind⟩ := Checked.bind_eq_ok.mp hfind
    cases hfind
    obtain ⟨prof', hprof', hensured⟩ := h.profileObjects _ _ (Store.read_eq_ok.mp hprof)
    have hcommand' := hcommand
    rw [← hensured.findcommand_eq] at hcommand'
    rw [if_pos hactive, Store.read_eq_ok.mpr hprof', Checked.ok_bind, hcommand', Checked.ok_bind]
    refine ⟨_, rfl, h.devices, h.nameToId, h.profiles, h.objects, fun pp q hq => ?_,
      fun pp hq => ?_⟩
    · rw [Store.find?_write hprof']
      split
      · next heq =>
        subst heq
        obtain rfl := Option.some.inj ((Store.read_eq_ok.mp hprof).symm.trans hq)
        exact ⟨p, rfl, hensured.findcommand hcommand'⟩
      · exact h.profileObjects pp q hq
    · rw [Store.find?_write hprof', if_neg]
      · exact h.dangling pp hq
      · rintro rfl
        rw [Store.read_eq_ok.mp hprof] at hq
        cases hq
  · next hactive =>
    cases hfind
    rw [if_neg hactive]
    exact ⟨m, rfl, h⟩

theorem Walked.retain (h : map.Walked taken m) {d : DeviceObject}
    (hd : map.objects.find? dev = some d) :
    ∃ m', m.retain dev = .ok m' ∧ map.Walked (dev :: taken) m' := by
  have hd' : m.objects.find? dev = some { d with refs := d.refs + taken.count dev } := by
    rw [h.objects, hd, Option.map_some]
  rw [Devmap.retain, Store.read_eq_ok.mpr hd', Checked.ok_bind]
  refine ⟨_, rfl, h.devices, h.nameToId, h.profiles, fun b => ?_, h.profileObjects, h.dangling⟩
  rw [Store.find?_write hd']
  split
  · next heq =>
    subst heq
    rw [hd, Option.map_some, List.count_cons_self, Nat.add_assoc]
  · next hne =>
    rw [h.objects, List.count_cons_of_ne (Ne.symm hne)]

/-- What the walk puts in the queue for the entries it visits, the last in front. -/
def queued (map : Devmap) (cmd : Text) (forGet : Bool) (entries : List (Text × ObjAddr)) :
    List (ObjAddr × CmdInfo) :=
  (entries.filterMap fun p => (map.foundCommand cmd forGet p.2).map (p.2, ·)).reverse

theorem queued_cons (p : Text × ObjAddr) (entries : List (Text × ObjAddr)) :
    map.queued cmd forGet (p :: entries) = map.queued cmd forGet entries ++
      ((map.foundCommand cmd forGet p.2).map (p.2, ·)).toList := by
  rw [queued, queued, List.filterMap_cons]
  cases map.foundCommand cmd forGet p.2 with
  | none => simp
  | some command => simp

/-- The search on a live device with a live profile. -/
theorem findCommand_returns_iff {d : DeviceObject} {prof : DeviceProfile}
    (hd : map.objects.find? dev = some d) (hprof : map.profileObjects.find? d.profile = some prof) :
    (∃ r, map.findCommand cmd forGet dev = .ok r) ↔
      (d.operatingState = .enabled → d.adminState = .unlocked →
        ∃ r, edgexDeviceprofileFindcommand cmd prof forGet = .ok r) := by
  rw [Devmap.findCommand, Store.read_eq_ok.mpr hd, Checked.ok_bind]
  split
  · next hactive =>
    rw [Store.read_eq_ok.mpr hprof, Checked.ok_bind]
    constructor
    · rintro ⟨r, hr⟩ - -
      obtain ⟨r', hr', -⟩ := Checked.bind_eq_ok.mp hr
      exact ⟨r', hr'⟩
    · intro h
      obtain ⟨r, hr⟩ := h hactive.1 hactive.2
      rw [hr, Checked.ok_bind]
      exact ⟨_, rfl⟩
  · next hactive =>
    exact iff_of_true ⟨_, rfl⟩ fun henabled hunlocked => absurd ⟨henabled, hunlocked⟩ hactive

/-- A search that returns in the course of the walk returns before it. -/
theorem Walked.findCommand_returns (h : map.Walked taken m) {d : DeviceObject}
    {prof : DeviceProfile} (hd : map.objects.find? dev = some d)
    (hprof : map.profileObjects.find? d.profile = some prof)
    (hm : ∃ r, m.findCommand cmd forGet dev = .ok r) :
    ∃ r, map.findCommand cmd forGet dev = .ok r := by
  obtain ⟨prof', hprof', hensured⟩ := h.profileObjects _ _ hprof
  have hd' : m.objects.find? dev = some { d with refs := d.refs + taken.count dev } := by
    rw [h.objects, hd, Option.map_some]
  rw [findCommand_returns_iff hd' hprof', hensured.findcommand_eq] at hm
  exact (findCommand_returns_iff hd hprof).mpr hm

/-- A round at the end of the walk. -/
theorem forcmdRound_end {iter : Iter} (hend : m.devices.remaining iter = []) :
    m.forcmdRound cmd forGet iter = .ok (none, m) := by
  rcases HashMap.next_cases m.devices iter with ⟨hnext, -⟩ | ⟨key, v, iter', -, hremaining⟩
  · simp only [forcmdRound, hnext]
    rfl
  · rw [hend] at hremaining
    cases hremaining

variable (cmd forGet) in
/-- A round at an entry of the map, as far as its search returns. -/
theorem Walked.forcmdRound_bind (h : map.Walked taken m) {iter : Iter} {p : Text × ObjAddr}
    {rest : List (Text × ObjAddr)} (hremaining : map.devices.remaining iter = p :: rest)
    (hentry : p ∈ map.devices.entries) : ∃ iter', map.devices.remaining iter' = rest ∧
      m.forcmdRound cmd forGet iter = (m.findCommand cmd forGet p.2 >>= fun r =>
        match r with
        | (none, m') => .ok (some (iter', none), m')
        | (some command, m') => m'.retain p.2 >>= fun m'' =>
          .ok (some (iter', some (p.2, command)), m'')) := by
  rcases HashMap.next_cases m.devices iter with ⟨-, hend⟩ | ⟨key, v, iter', hnext, hleft⟩
  · rw [h.devices, hremaining] at hend
    cases hend
  · rw [h.devices, hremaining] at hleft
    obtain ⟨rfl, hrest⟩ := List.cons_eq_cons.mp hleft
    have hget : m.devices.get key = some v := by
      rw [h.devices]
      exact HashMap.mem_entries.mp hentry
    refine ⟨iter', hrest.symm, ?_⟩
    simp only [forcmdRound, hnext, hget]
    cases m.findCommand cmd forGet v with
    | error e => rfl
    | ok r =>
      obtain ⟨command, m'⟩ := r
      cases command with
      | none => rfl
      | some command => rfl

/-- The loop queues what is found for the entries that are left. -/
theorem Walked.forcmdLoop_eq (hlive : map.Live) {rest : List (Text × ObjAddr)}
    (hentries : ∀ p ∈ rest, p ∈ map.devices.entries)
    (hfinds : ∀ p ∈ rest, ∃ r, map.findCommand cmd forGet p.2 = .ok r)
    (h : map.Walked taken m) {iter : Iter} (hremaining : map.devices.remaining iter = rest)
    (result : List (ObjAddr × CmdInfo)) :
    ∃ m', m.forcmdLoop cmd forGet iter result = .ok (map.queued cmd forGet rest ++ result, m') ∧
      map.Walked ((map.queued cmd forGet rest).map Prod.fst ++ taken) m' := by
  induction rest generalizing m iter taken result with
  | nil =>
    refine ⟨m, ?_, h⟩
    rw [forcmdLoop_step, forcmdRound_end (by rw [h.devices, hremaining])]
    rfl
  | cons p rest ih =>
    rw [List.forall_mem_cons] at hentries hfinds
    obtain ⟨⟨command, m₁⟩, hfind⟩ := hfinds.1
    obtain ⟨iter', hrest, hround⟩ := h.forcmdRound_bind cmd forGet hremaining hentries.1
    obtain ⟨m₂, hfind', h₂⟩ := h.findCommand hfind
    have hfound : map.foundCommand cmd forGet p.2 = command := by rw [foundCommand, hfind]
    rw [hfind', Checked.ok_bind] at hround
    rw [forcmdLoop_step, hround, queued_cons, hfound]
    cases command with
    | none =>
      obtain ⟨m', hloop, hwalked⟩ := ih hentries.2 hfinds.2 h₂ hrest result
      refine ⟨m', ?_, by simpa using hwalked⟩
      rw [Option.map_none, Option.toList_none, List.append_nil]
      exact hloop
    | some command =>
      obtain ⟨d, prof, hd, -, -⟩ := hlive.device (HashMap.mem_entries.mp hentries.1)
      obtain ⟨m₃, hretain, h₃⟩ := h₂.retain hd
      obtain ⟨m', hloop, hwalked⟩ := ih hentries.2 hfinds.2 h₃ hrest ((p.2, command) :: result)
      refine ⟨m', ?_, by simpa using hwalked⟩
      rw [Option.map_some, Option.toList_some, List.append_assoc]
      dsimp only
      rw [hretain, Checked.ok_bind, Checked.ok_bind]
      exact hloop

/-- The loop only returns when every search does. -/
theorem Walked.forcmdLoop_finds (hlive : map.Live) {rest : List (Text × ObjAddr)}
    (hentries : ∀ p ∈ rest, p ∈ map.devices.entries) (h : map.Walked taken m) {iter : Iter}
    (hremaining : map.devices.remaining iter = rest) {result : List (ObjAddr × CmdInfo)}
    {r : List (ObjAddr × CmdInfo) × Devmap}
    (hloop : m.forcmdLoop cmd forGet iter result = .ok r) :
    ∀ p ∈ rest, ∃ r, map.findCommand cmd forGet p.2 = .ok r := by
  induction rest generalizing m iter taken result with
  | nil => exact List.forall_mem_nil _
  | cons p rest ih =>
    rw [List.forall_mem_cons] at hentries
    obtain ⟨iter', hrest, hround⟩ := h.forcmdRound_bind cmd forGet hremaining hentries.1
    obtain ⟨d, prof, hd, -, hprof⟩ := hlive.device (HashMap.mem_entries.mp hentries.1)
    rw [forcmdLoop_step, hround] at hloop
    obtain ⟨_, hround, hloop⟩ := Checked.bind_eq_ok.mp hloop
    obtain ⟨⟨command, m₁⟩, hfind, hround⟩ := Checked.bind_eq_ok.mp hround
    obtain ⟨⟨command', m₂⟩, hbefore⟩ := h.findCommand_returns hd hprof ⟨_, hfind⟩
    obtain ⟨m₃, hfind', h₃⟩ := h.findCommand hbefore
    cases hfind.symm.trans hfind'
    rw [List.forall_mem_cons]
    refine ⟨⟨_, hbefore⟩, ?_⟩
    cases command with
    | none =>
      cases hround
      exact ih hentries.2 h₃ hrest hloop
    | some command =>
      obtain ⟨m₄, hretain, h₄⟩ := h₃.retain hd
      obtain ⟨m₅, hretain', hround⟩ := Checked.bind_eq_ok.mp hround
      cases hretain.symm.trans hretain'
      cases hround
      exact ih hentries.2 h₄ hrest hloop

variable (cmd forGet) in
/-- The whole call returns exactly when the search does for every device of the map. -/
theorem deviceForcmd_returns_iff (hlive : map.Live) :
    (∃ r, map.deviceForcmd cmd forGet = .ok r) ↔ map.Searchable := by
  have hstart : map.devices.remaining (HashMap.iter _ _) = map.devices.entries :=
    HashMap.remaining_iter _
  constructor
  · rintro ⟨r, hr⟩ id dev d prof hid hd henabled hunlocked hprof
    have hfinds := (Walked.refl map).forcmdLoop_finds hlive (fun _ hp => hp) hstart hr
    have hfind := hfinds _ (HashMap.mem_entries.mpr hid)
    have hreturns := (findCommand_returns_iff hd hprof).mp hfind henabled hunlocked
    exact findcommand_returns_iff.mp hreturns
  · intro hsearch
    have hfinds : ∀ p ∈ map.devices.entries, ∃ r, map.findCommand cmd forGet p.2 = .ok r := by
      intro p hp
      have hid := HashMap.mem_entries.mp hp
      obtain ⟨d, prof, hd, -, hprof⟩ := hlive.device hid
      refine (findCommand_returns_iff hd hprof).mpr fun henabled hunlocked => ?_
      exact findcommand_returns_iff.mpr (hsearch _ _ _ _ hid hd henabled hunlocked hprof)
    obtain ⟨m', hloop, -⟩ :=
      (Walked.refl map).forcmdLoop_eq hlive (fun _ hp => hp) hfinds hstart []
    exact ⟨_, hloop⟩

theorem foundCommand_eq_some {command : CmdInfo} :
    map.foundCommand cmd forGet dev = some command ↔ map.CommandOf cmd forGet dev command := by
  constructor
  · intro h
    unfold foundCommand at h
    split at h
    · next command' m hfind =>
      subst h
      obtain ⟨d, hd, hfind⟩ := Checked.bind_eq_ok.mp hfind
      split at hfind
      · next hactive =>
        obtain ⟨prof, hprof, hfind⟩ := Checked.bind_eq_ok.mp hfind
        obtain ⟨⟨info, prof'⟩, hcommand, hfind⟩ := Checked.bind_eq_ok.mp hfind
        cases hfind
        exact ⟨d, prof, prof', Store.read_eq_ok.mp hd, hactive.1, hactive.2,
          Store.read_eq_ok.mp hprof, hcommand⟩
      · cases hfind
    · cases h
  · rintro ⟨d, prof, prof', hd, henabled, hunlocked, hprof, hcommand⟩
    rw [foundCommand, Devmap.findCommand, Store.read_eq_ok.mpr hd, Checked.ok_bind,
      if_pos ⟨henabled, hunlocked⟩, Store.read_eq_ok.mpr hprof, Checked.ok_bind, hcommand]
    rfl

/-- No device stands under two ids. -/
theorem Live.nodup_devices (hlive : map.Live) : (map.devices.entries.map Prod.snd).Nodup := by
  have hkeys : (map.devices.entries.map Prod.fst).Nodup := map.devices.placed.flatten_nodup
  refine List.Nodup.map_on ?_ (List.Nodup.of_map _ hkeys)
  rintro ⟨id, dev⟩ hp ⟨id', dev'⟩ hp' rfl
  obtain ⟨d, prof, hd, hid, -⟩ := hlive.device (HashMap.mem_entries.mp hp)
  obtain ⟨d', prof', hd', hid', -⟩ := hlive.device (HashMap.mem_entries.mp hp')
  cases hd.symm.trans hd'
  rw [← hid, ← hid']

theorem queued_sublist (entries : List (Text × ObjAddr)) :
    ((map.queued cmd forGet entries).map Prod.fst).Sublist (entries.map Prod.snd).reverse := by
  rw [queued, List.map_reverse, List.reverse_sublist]
  induction entries with
  | nil => exact .slnil
  | cons p entries ih =>
    rw [List.filterMap_cons, List.map_cons]
    cases map.foundCommand cmd forGet p.2 with
    | none => exact ih.cons _
    | some command => exact ih.cons_cons _

theorem mem_queued {entries : List (Text × ObjAddr)} {command : CmdInfo} :
    (dev, command) ∈ map.queued cmd forGet entries ↔
      (∃ id, (id, dev) ∈ entries) ∧ map.foundCommand cmd forGet dev = some command := by
  rw [queued, List.mem_reverse, List.mem_filterMap]
  constructor
  · rintro ⟨⟨id, dev'⟩, hp, hfound⟩
    obtain ⟨command', hcommand, heq⟩ := Option.map_eq_some_iff.mp hfound
    cases heq
    exact ⟨⟨id, hp⟩, hcommand⟩
  · rintro ⟨⟨id, hp⟩, hcommand⟩
    exact ⟨(id, dev), hp, by rw [hcommand, Option.map_some]⟩

/-- What the whole call leaves. -/
theorem deviceForcmd_listsCommands (hlive : map.Live) {result : List (ObjAddr × CmdInfo)}
    (h : map.deviceForcmd cmd forGet = .ok (result, m')) :
    map.ListsCommands cmd forGet result m' := by
  have hstart : map.devices.remaining (HashMap.iter _ _) = map.devices.entries :=
    HashMap.remaining_iter _
  have hfinds := (Walked.refl map).forcmdLoop_finds hlive (fun _ hp => hp) hstart h
  obtain ⟨m'', hloop, hwalked⟩ :=
    (Walked.refl map).forcmdLoop_eq hlive (fun _ hp => hp) hfinds hstart []
  cases h.symm.trans hloop
  rw [List.append_nil] at hwalked ⊢
  have honce : ((map.queued cmd forGet map.devices.entries).map Prod.fst).Nodup :=
    (queued_sublist _).nodup (List.nodup_reverse.mpr hlive.nodup_devices)
  exact {
    listed := fun dev command => by
      rw [mem_queued, foundCommand_eq_some]
      simp only [HashMap.mem_entries]
    once := honce
    objects := fun dev => by rw [hwalked.objects, honce.count]
    devices := hwalked.devices
    nameToId := hwalked.nameToId
    profiles := hwalked.profiles
    profileObjects := fun pp prof hprof => by
      obtain ⟨prof', hprof', hensured⟩ := hwalked.profileObjects pp prof hprof
      exact ⟨prof', hprof', hensured.sameProfile⟩ }

end Walk

-- ---------------------------------------------------------------------------
-- Any map that the threads reach
-- ---------------------------------------------------------------------------

/-- On a map that nobody has, the call lists the devices with their commands exactly when the table
of every enabled and unlocked device's profile is there or can be built. An operation that names no
resource is followed through a null pointer. -/
theorem deviceForcmd_lists_iff {as : List Action} {s : Threads}
    (hrun : Machine.run (Machine.checked threadsStep) (.ok .init) as = some (.ok s))
    (hidle : s.phase = .reading []) (cmd : Text) (forGet : Bool) :
    (∃ result map', s.map.deviceForcmd cmd forGet = .ok (result, map') ∧
      s.map.ListsCommands cmd forGet result map') ↔ s.map.Searchable := by
  have hlive := (Threads.live_of_run hrun hidle).1
  rw [← deviceForcmd_returns_iff cmd forGet hlive]
  constructor
  · rintro ⟨result, map', h, -⟩
    exact ⟨_, h⟩
  · rintro ⟨⟨result, map'⟩, h⟩
    exact ⟨result, map', h, deviceForcmd_listsCommands hlive h⟩

/-- One plug in the map, and its power is asked for. -/
theorem deviceForcmd_lists_plug :
    ∃ (s : Threads) (result : List (ObjAddr × CmdInfo)) (map' : Devmap),
      s.map.devices.entries = [(lit "1", 0)] ∧
      s.map.deviceForcmd (lit "Power") true = .ok (result, map') ∧
      s.map.ListsCommands (lit "Power") true result map' := by
  obtain ⟨s, hs⟩ := Machine.exists_ok (r := Machine.run (Machine.checked threadsStep) (.ok .init)
    [.wrlock (.replace (plug (lit "1") (lit "Plug"))), .write, .write, .write]) (by decide +kernel)
  obtain ⟨hidle, hentries, d, hd, hprof⟩ : s.phase = .reading [] ∧
      s.map.devices.entries = [(lit "1", 0)] ∧ ∃ d, s.map.objects.find? 0 = some d ∧
        s.map.profileObjects.find? d.profile = some plugProfile := by
    cases hs
    exact ⟨rfl, rfl, _, rfl, rfl⟩
  have hsearch : s.map.Searchable := by
    intro id dev d' prof hid hd' _ _ hprof'
    rw [← HashMap.mem_entries, hentries, List.mem_singleton] at hid
    cases hid
    cases hd.symm.trans hd'
    cases hprof.symm.trans hprof'
    right
    unfold DeviceProfile.OpsNamed
    decide
  obtain ⟨result, map', h, hlists⟩ :=
    (deviceForcmd_lists_iff hs hidle (lit "Power") true).mpr hsearch
  exact ⟨s, result, map', hentries, h, hlists⟩

/-- A plug whose profile has a command that asks for a resource it does not have. -/
def relayPlug : Device :=
  { plug (lit "1") (lit "Plug") with
    profile := some { plugProfile with
      deviceCommands := [⟨lit "State", [], [⟨[], [], lit "Relay", [], [], [], [], []⟩]⟩] } }

/-- With that plug in the map, enabled and unlocked, any command for all devices follows a null
pointer, also one that has nothing to do with the resource. -/
theorem deviceForcmd_relay :
    ∃ (s : Threads) (d : DeviceObject),
      Machine.run (Machine.checked threadsStep) (.ok .init)
        [.wrlock (.replace relayPlug), .write, .write, .write] = some (.ok s) ∧
      s.phase = .reading [] ∧ s.map.devices.get (lit "1") = some 0 ∧
      s.map.objects.find? 0 = some d ∧ d.operatingState = .enabled ∧ d.adminState = .unlocked ∧
      s.map.deviceForcmd (lit "Power") true = .error .nullPointer ∧
      ¬ ∃ result map', s.map.deviceForcmd (lit "Power") true = .ok (result, map') ∧
        s.map.ListsCommands (lit "Power") true result map' := by
  obtain ⟨s, hs⟩ := Machine.exists_ok (r := Machine.run (Machine.checked threadsStep) (.ok .init)
    [.wrlock (.replace relayPlug), .write, .write, .write]) (by decide +kernel)
  have hround : s.map.forcmdRound (lit "Power") true (HashMap.iter _ _) = .error .nullPointer := by
    cases hs
    rfl
  have hfault : s.map.deviceForcmd (lit "Power") true = .error .nullPointer := by
    rw [deviceForcmd, forcmdLoop_step, hround]
    rfl
  obtain ⟨hidle, hid, d, hd, henabled, hunlocked⟩ : s.phase = .reading [] ∧
      s.map.devices.get (lit "1") = some 0 ∧ ∃ d, s.map.objects.find? 0 = some d ∧
        d.operatingState = .enabled ∧ d.adminState = .unlocked := by
    cases hs
    exact ⟨rfl, rfl, _, rfl, rfl, rfl⟩
  refine ⟨s, d, hs, hidle, hid, hd, henabled, hunlocked, hfault, ?_⟩
  rintro ⟨result, map', h, -⟩
  rw [hfault] at h
  cases h

end Devmap

end Zigbee
