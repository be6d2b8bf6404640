-- SUMMARY: Every device lives exactly as long as the map or a borrower refers to it, whatever the threads do.
import ZigbeeService.Devices.Index
import ZigbeeService.Devices.RefCount

/-!
# Lifetimes of devices

The counts stay exact over every run of the threads, so a device is freed at the step that takes the
last reference to it, and no step follows a pointer to a device that was freed.
-/

namespace Zigbee

open CLib

/-! ## Computations on profiles -/

theorem noDangling_mapM {α β : Type} {f : α → Checked β} {l : List α}
    (h : ∀ x ∈ l, NoDangling (f x)) : NoDangling (l.mapM f) := by
  induction l with
  | nil => exact .ok _
  | cons x l ih =>
    rw [List.forall_mem_cons] at h
    rw [List.mapM_cons]
    exact h.1.bind fun y _ => (ih h.2).bind fun ys _ => .ok _

theorem noDangling_infoForRes (prof : DeviceProfile) (cmd : DeviceCommand) (forGet : Bool) :
    NoDangling (infoForRes prof cmd forGet) := by
  refine NoDangling.bind (noDangling_mapM fun ro _ => ?_) fun _ _ => .ok _
  unfold requestForOp
  split
  · exact .null
  · exact .ok _

theorem noDangling_appendCommands (prof : DeviceProfile) (cmds : List DeviceCommand)
    (table : List CmdInfo) : NoDangling (appendCommands prof cmds table) := by
  have happend (cmd : DeviceCommand) (forGet : Bool) (table : List CmdInfo) :
      NoDangling (appendInfo prof cmd forGet table) := by
    unfold appendInfo
    split
    · exact .ok _
    · exact (noDangling_infoForRes prof cmd forGet).bind fun _ _ => .ok _
  induction cmds generalizing table with
  | nil => exact .ok _
  | cons cmd cmds ih =>
    exact (happend _ _ _).bind fun _ _ => (happend _ _ _).bind fun _ _ => ih _

theorem noDangling_findcommand (name : Text) (prof : DeviceProfile) (forGet : Bool) :
    NoDangling (edgexDeviceprofileFindcommand name prof forGet) := by
  refine NoDangling.bind ?_ fun _ _ => .ok _
  unfold ensureCmdInfo
  split
  · exact (noDangling_appendCommands _ _ _).bind fun _ _ => .ok _
  · exact .ok _

theorem noDangling_autoeventStart (autos : List AutoEvent) (prof : DeviceProfile) :
    NoDangling (edgexDeviceAutoeventStart prof autos) := by
  induction autos generalizing prof with
  | nil => exact .ok _
  | cons ae autos ih => exact (noDangling_findcommand _ _ _).bind fun _ _ => ih _

namespace Devmap

/-! ## No step follows a dangling pointer -/

section Safe

variable {map : Devmap} {borrows : List ObjAddr} {a : ObjAddr} {d : DeviceObject}

theorem noDangling_release (hd : map.objects.find? a = some d) : NoDangling (map.release a) := by
  refine (NoDangling.read hd).bind fun _ _ => ?_
  split <;> exact .ok _

theorem noDangling_retain (hd : map.objects.find? a = some d) : NoDangling (map.retain a) :=
  (NoDangling.read hd).bind fun _ _ => .ok _

theorem noDangling_removeLocked (hd : map.objects.find? a = some d) :
    NoDangling (map.removeLocked a) :=
  (NoDangling.read hd).bind fun _ _ => noDangling_release hd

theorem Counted.noDangling_addLocked (h : map.Counted borrows) (dev : Device) :
    NoDangling (map.addLocked dev) := by
  refine NoDangling.bind ?_ fun dup _ => ?_
  · unfold edgexDeviceDup
    split
    · exact .null
    · exact .ok _
  · split
    · exact .null
    · next profile _ =>
      obtain ⟨pp, m, hshare, -, -, -, hget, hregistered, hkept⟩ := map.shareProfile_spec profile
      have hlive : ∃ prof, m.profileObjects.find? pp = some prof := by
        rcases hregistered _ _ hget with hold | ⟨-, hnew⟩
        · obtain ⟨prof, hprof⟩ := h.registered hold
          obtain ⟨prof', hprof', -⟩ := hkept hprof
          exact ⟨prof', hprof'⟩
        · exact ⟨profile, hnew⟩
      obtain ⟨prof, hprof⟩ := hlive
      simp only [hshare]
      exact (NoDangling.read hprof).bind fun _ _ =>
        (noDangling_autoeventStart _ _).bind fun _ _ => .ok _

theorem Counted.noDangling_replaceOld (h : map.Counted borrows) (dev : Device) :
    NoDangling (map.replaceOld dev) := by
  unfold replaceOld
  split
  · exact .ok _
  · next a ha =>
    obtain ⟨d, hd, -⟩ := h.device ha
    refine NoDangling.bind ?_ fun r hr => ?_
    · refine (NoDangling.read hd).bind fun d' hd' => ?_
      split
      · exact .ok _
      · obtain ⟨prof, hprof⟩ := h.profile (Store.read_eq_ok.mp hd')
        refine (NoDangling.read hprof).bind fun _ _ => ?_
        split
        · exact .null
        · split <;> exact .ok _
    · obtain ⟨done, m⟩ := r
      dsimp only
      split
      · exact .ok _
      · next hdone =>
        obtain ⟨d', hd', ⟨-, rfl⟩ | ⟨hdone', -⟩⟩ := updateInPlace_eq_ok hr
        · exact (noDangling_removeLocked hd').bind fun _ _ => .ok _
        · exact absurd hdone' hdone

theorem Sound.noDangling_findByname (h : map.Sound borrows) (name : Text) :
    NoDangling (map.findByname name) := by
  unfold Devmap.findByname
  split
  · exact .ok _
  · next c hc =>
    obtain ⟨d, hd, -⟩ := h.names name c hc
    refine (NoDangling.read hd).bind fun _ _ => ?_
    split
    · exact .null
    · exact .ok _

theorem Counted.live (h : map.Counted borrows) (ha : map.InMap a) :
    ∃ d, map.objects.find? a = some d := by
  obtain ⟨id, hid⟩ := ha
  obtain ⟨d, hd, -⟩ := h.device hid
  exact ⟨d, hd⟩

theorem Sound.noDangling_reader (h : map.Sound borrows) (r : Reader) : NoDangling (r.step map) := by
  cases r with
  | byid id =>
    refine NoDangling.bind ?_ fun _ _ => .ok _
    unfold deviceByid
    split
    · exact .ok _
    · next a ha =>
      obtain ⟨d, hd⟩ := h.counted.live ⟨id, ha⟩
      exact (noDangling_retain hd).bind fun _ _ => .ok _
  | byname name =>
    refine NoDangling.bind ?_ fun _ _ => .ok _
    refine (h.noDangling_findByname name).bind fun found hfound => ?_
    cases found with
    | none => exact .ok _
    | some a =>
      obtain ⟨d, hd⟩ := h.counted.live (h.findByname hfound a rfl)
      exact (noDangling_retain hd).bind fun _ _ => .ok _
  | forcmd cmd forGet iter result =>
    refine NoDangling.bind ?_ fun res _ => ?_
    · unfold Devmap.forcmdRound
      split
      · exact .ok _
      · split
        · exact .null
        · next dev hdev =>
          obtain ⟨d, hd⟩ := h.counted.live ⟨_, hdev⟩
          refine NoDangling.bind ?_ fun found hfound => ?_
          · refine (NoDangling.read hd).bind fun d' hd' => ?_
            split
            · obtain ⟨prof, hprof⟩ := h.counted.profile (Store.read_eq_ok.mp hd')
              exact (NoDangling.read hprof).bind fun _ _ =>
                (noDangling_findcommand _ _ _).bind fun _ _ => .ok _
            · exact .ok _
          · obtain ⟨command, m⟩ := found
            obtain ⟨st, -, rfl⟩ := findCommand_eq_ok hfound
            cases command with
            | none => exact .ok _
            | some command =>
              refine NoDangling.bind ?_ fun _ _ => .ok _
              exact noDangling_retain hd
    · obtain ⟨next, m⟩ := res
      rcases next with _ | ⟨iter', _ | q⟩ <;> exact .ok _
  | done => exact .ok _

theorem Sound.noDangling_writer (h : map.Sound borrows) (w : Writer) : NoDangling (w.step map) := by
  cases w with
  | running c =>
    cases c with
    | populate devs =>
      cases devs with
      | nil => exact .ok _
      | cons dev devs =>
        refine NoDangling.bind ?_ fun _ _ => .ok _
        unfold Devmap.populateDevice
        split
        · exact .ok _
        · exact h.counted.noDangling_addLocked dev
    | replace dev => exact (h.counted.noDangling_replaceOld dev).bind fun _ _ => .ok _
    | removeByname name =>
      refine NoDangling.bind ?_ fun _ _ => .ok _
      refine (h.noDangling_findByname name).bind fun found hfound => ?_
      cases found with
      | none => exact .ok _
      | some a =>
        obtain ⟨d, hd⟩ := h.counted.live (h.findByname hfound a rfl)
        exact noDangling_removeLocked hd
    | removeByid id =>
      refine NoDangling.bind ?_ fun _ _ => .ok _
      unfold removedeviceByid
      split
      · exact .null
      · next a ha =>
        obtain ⟨d, hd⟩ := h.counted.live ⟨id, ha⟩
        exact noDangling_removeLocked hd
  | adding dev => exact (h.counted.noDangling_addLocked dev).bind fun _ _ => .ok _
  | done => exact .ok _

end Safe

/-! ## The threads -/

/-- What holds in each phase. A name may lead to a freed device once the map is being cleared. -/
def Phase.Ok (map : Devmap) : Phase → Prop
  | .reading calls => map.NamesLead ∧ ∀ r ∈ calls, r.Walks map
  | .writing w => map.NamesLead ∧ w.Fresh map
  | .clearing key iter => map.devices.AtFirst key iter
  | .cleared => map.devices.entries = []

structure Threads.Inv (s : Threads) : Prop where
  counted : s.map.Counted s.borrows
  phase : s.phase.Ok s.map

/-- Populating begins with an empty map, and with ids of their own. -/
def PopulatesEmpty (s : Threads) : Action → Prop
  | .wrlock (.populate devs) =>
    s.map.devices.entries = [] ∧ (devs.map fun dev => dev.id).Nodup
  | _ => True

instance PopulatesEmpty.decidable (s : Threads) : ∀ a, Decidable (PopulatesEmpty s a)
  | .wrlock (.populate devs) =>
    inferInstanceAs (Decidable (s.map.devices.entries = [] ∧ (devs.map fun dev => dev.id).Nodup))
  | .wrlock (.replace _) => .isTrue trivial
  | .wrlock (.removeByname _) => .isTrue trivial
  | .wrlock (.removeByid _) => .isTrue trivial
  | .rdlock _ => .isTrue trivial
  | .read _ => .isTrue trivial
  | .write => .isTrue trivial
  | .release _ => .isTrue trivial
  | .clear => .isTrue trivial

theorem Threads.inv_init : Threads.init.Inv where
  counted := {
    exact := RefsExact.empty.congr fun _ => owed_of_not_inMap fun ⟨_, hid⟩ => nomatch hid
    device := fun h => nomatch h
    profile := fun h => nomatch h
    registered := fun h => nomatch h }
  phase := ⟨fun _ _ h => (nomatch h), fun _ hr => (nomatch hr)⟩

section Steps

variable {s s' : Threads} {a : Action}

theorem Writer.Fresh.congr {map map' : Devmap} {w : Writer} (h : w.Fresh map)
    (hdevices : map'.devices = map.devices) : w.Fresh map' := by
  cases w with
  | running c =>
    cases c with
    | populate devs =>
      obtain ⟨hfree, hnodup⟩ := h
      exact ⟨fun dev hdev => by rw [hdevices]; exact hfree dev hdev, hnodup⟩
    | _ => trivial
  | adding dev =>
    rw [Writer.Fresh, hdevices]
    exact h
  | done => trivial

/-- The phase only looks at the names and the devices. -/
theorem Phase.Ok.congr {map map' : Devmap} {p : Phase} (h : p.Ok map)
    (hdevices : map'.devices = map.devices) (hnames : map.NamesLead → map'.NamesLead) :
    p.Ok map' := by
  cases p with
  | reading calls => exact ⟨hnames h.1, fun r hr => (h.2 r hr).congr hdevices⟩
  | writing w => exact ⟨hnames h.1, h.2.congr hdevices⟩
  | clearing key iter =>
    rw [Phase.Ok, hdevices]
    exact h
  | cleared =>
    rw [Phase.Ok, hdevices]
    exact h

theorem clearPhase_ok {map : Devmap} {next : Option (Text × Iter)}
    (h : (next = none ∧ map.devices.entries = []) ∨
      ∃ key iter, next = some (key, iter) ∧ map.devices.AtFirst key iter) :
    (clearPhase next).Ok map := by
  rcases h with ⟨rfl, hnil⟩ | ⟨key, iter, rfl, hat⟩
  · exact hnil
  · exact hat

theorem Call.fresh {c : Call} (h : PopulatesEmpty s (.wrlock c)) : (Writer.running c).Fresh s.map := by
  cases c with
  | populate devs =>
    refine ⟨fun dev _ => ?_, h.2⟩
    apply Option.eq_none_iff_forall_ne_some.mpr
    intro a ha
    have hmem := HashMap.mem_entries.mpr ha
    rw [h.1] at hmem
    cases hmem
  | _ => trivial

/-- What every step preserves. -/
theorem Threads.Inv.step (h : s.Inv) (hempty : PopulatesEmpty s a)
    (hstep : threadsStep s a = some (.ok s')) : s'.Inv := by
  cases threadsStep_stepsTo hstep with
  | rdlock q =>
    refine ⟨h.counted, h.phase.1, fun r hr => ?_⟩
    rcases List.mem_append.mp hr with hmem | hmem
    · exact h.phase.2 r hmem
    · rw [List.mem_singleton.mp hmem]
      exact q.start_walks _
  | readDone hcall =>
    exact ⟨h.counted, h.phase.1, fun r hr => h.phase.2 r (List.mem_of_mem_eraseIdx hr)⟩
  | read hcall hread =>
    have hwalks := h.phase.2 _ (List.mem_of_getElem? hcall)
    have heffect := Sound.readerStep ⟨h.counted, h.phase.1⟩ hwalks hread
    refine ⟨heffect.sound.counted, heffect.sound.names, fun q hq => ?_⟩
    rcases List.mem_or_eq_of_mem_set hq with hq | rfl
    · exact (h.phase.2 q hq).congr heffect.devices
    · exact heffect.walks
  | wrlock c => exact ⟨h.counted, h.phase.1, Call.fresh hempty⟩
  | writeDone => exact ⟨h.counted, h.phase.1, fun _ hr => (nomatch hr)⟩
  | write hwrite =>
    have heffect := Sound.writerStep ⟨h.counted, h.phase.1⟩ h.phase.2 hwrite
    exact ⟨heffect.sound.counted, heffect.sound.names, heffect.fresh⟩
  | release hmem hrelease =>
    refine ⟨h.counted.release hmem hrelease, ?_⟩
    exact h.phase.congr (release_indexes hrelease).1 fun hnames =>
      hnames.release h.counted hmem hrelease
  | clear => exact ⟨h.counted, clearPhase_ok (HashMap.next_iter _)⟩
  | clearRound hround =>
    have hclear := h.counted.clearRound h.phase hround
    exact ⟨hclear.counted, clearPhase_ok hclear.next⟩

/-- A step takes no address back, and no freed device. -/
theorem Threads.Inv.ages (h : s.Inv) (hstep : threadsStep s a = some (.ok s')) :
    s.map.objects.Ages s'.map.objects := by
  cases threadsStep_stepsTo hstep with
  | rdlock q => exact .refl _
  | readDone hcall => exact .refl _
  | read hcall hread =>
    have hwalks := h.phase.2 _ (List.mem_of_getElem? hcall)
    exact (Sound.readerStep ⟨h.counted, h.phase.1⟩ hwalks hread).ages
  | wrlock c => exact .refl _
  | writeDone => exact .refl _
  | write hwrite => exact (Sound.writerStep ⟨h.counted, h.phase.1⟩ h.phase.2 hwrite).ages
  | release hmem hrelease => exact release_ages hrelease
  | clear => exact .refl _
  | clearRound hround => exact (h.counted.clearRound h.phase hround).ages

/-- No step follows a pointer to a freed device. -/
theorem Threads.Inv.safe (h : s.Inv) (a : Action) :
    threadsStep s a ≠ some (.error .danglingPointer) := by
  obtain ⟨map, phase, borrows⟩ := s
  intro hstep
  cases a with
  | rdlock q =>
    simp only [threadsStep] at hstep
    split at hstep <;> cases hstep
  | wrlock c =>
    simp only [threadsStep] at hstep
    split at hstep <;> cases hstep
  | read place =>
    simp only [threadsStep] at hstep
    split at hstep
    · split at hstep
      · cases hstep
      · cases hstep
      · next r _ _ =>
        have hsound : map.Sound borrows := ⟨h.counted, h.phase.1⟩
        exact ((hsound.noDangling_reader r).bind fun _ _ => .ok _) (Option.some.inj hstep)
    · cases hstep
  | write =>
    simp only [threadsStep] at hstep
    split at hstep
    · cases hstep
    · next w _ =>
      have hsound : map.Sound borrows := ⟨h.counted, h.phase.1⟩
      exact ((hsound.noDangling_writer w).bind fun _ _ => .ok _) (Option.some.inj hstep)
    · cases hstep
  | release dev =>
    simp only [threadsStep] at hstep
    split at hstep
    · next hmem =>
      obtain ⟨d, hd⟩ := h.counted.borrowed hmem
      exact ((noDangling_release hd).bind fun _ _ => .ok _) (Option.some.inj hstep)
    · cases hstep
  | clear =>
    cases phase with
    | reading calls => cases calls <;> cases hstep
    | clearing key iter =>
      refine (NoDangling.bind ?_ fun _ _ => .ok _) (Option.some.inj hstep)
      unfold clearRound
      split
      · exact .null
      · next e he =>
        obtain ⟨d, hd⟩ := h.counted.live ⟨key, he⟩
        exact (noDangling_release hd).bind fun _ _ => .ok _
    | _ => cases hstep

end Steps

/-! ## Runs -/

/-- The references to the devices are counted exactly. -/
structure CountsExact (s : Threads) : Prop where
  /-- A live device counts the map's reference, if it holds the device, and the borrowed ones. -/
  refs : ∀ a d, s.map.objects.find? a = some d → d.refs = s.map.owed s.borrows a
  /-- A device that was made is freed exactly if it is neither in the map nor borrowed. -/
  freed : ∀ a, a < s.map.objects.size →
    (s.map.objects.find? a = none ↔ ¬ s.map.InMap a ∧ a ∉ s.borrows)
  /-- It is not freed a second time, and does not come back. -/
  once : ∀ act s', threadsStep s act = some (.ok s') → s.map.objects.Ages s'.map.objects
  /-- No operation reads a freed device. -/
  safe : ∀ act, threadsStep s act ≠ some (.error .danglingPointer)
  /-- When the map is cleared and everything is given back, every device is freed. -/
  cleared : s.phase = .cleared → s.borrows = [] → ∀ a, s.map.objects.find? a = none

theorem Threads.Inv.countsExact {s : Threads} (h : s.Inv) : CountsExact s where
  refs a d hd := (h.counted.exact.count hd).1
  freed := by
    intro a _
    constructor
    · intro hnone
      have hzero := h.counted.exact.gone hnone
      refine ⟨fun hin => ?_, fun hmem => ?_⟩
      · rw [owed_of_inMap hin] at hzero
        omega
      · obtain ⟨d, hd⟩ := h.counted.borrowed hmem
        rw [hnone] at hd
        cases hd
    · rintro ⟨hnot, hmem⟩
      apply Option.eq_none_iff_forall_ne_some.mpr
      intro d hd
      have hpos := (h.counted.exact.count hd).2
      rw [owed_of_not_inMap hnot, List.count_eq_zero.mpr hmem] at hpos
      exact Nat.lt_irrefl 0 hpos
  once act s' hstep := h.ages hstep
  safe := h.safe
  cleared := by
    intro hphase hborrows a
    have hnil : s.map.devices.entries = [] := by
      have hok := h.phase
      rw [hphase] at hok
      exact hok
    have hnot : ¬ s.map.InMap a := by
      rintro ⟨id, hid⟩
      have hmem := HashMap.mem_entries.mpr hid
      rw [hnil] at hmem
      cases hmem
    apply Option.eq_none_iff_forall_ne_some.mpr
    intro d hd
    have hpos := (h.counted.exact.count hd).2
    rw [owed_of_not_inMap hnot, hborrows] at hpos
    exact Nat.lt_irrefl 0 hpos

/-- In every run of the threads, the references to the devices are counted exactly. -/
theorem threads_countsExact {as : List Action} {s : Threads}
    (hguard : Machine.Guarded (Machine.checked threadsStep) (Machine.OnOk PopulatesEmpty)
      (.ok .init) as)
    (hrun : Machine.run (Machine.checked threadsStep) (.ok .init) as = some (.ok s)) :
    CountsExact s := by
  have hstep : ∀ {s : Threads} {a : Action} {s' : Threads}, s.Inv → PopulatesEmpty s a →
      threadsStep s a = some (.ok s') → s'.Inv := fun hs hempty h => hs.step hempty h
  exact (hguard.checked_invariant hstep hrun Threads.inv_init).countsExact

/-- A plug is looked up, replaced under another name while the borrower still has it, and given
back before the map is cleared. -/
def plugActions : List Action :=
  [.wrlock (.populate [plug (lit "1") (lit "Plug")]), .write, .write, .write,
    .rdlock (.byname (lit "Plug")), .read 0, .read 0,
    .wrlock (.replace (plug (lit "1") (lit "Socket"))), .write, .write, .write,
    .release 0, .clear, .clear]

theorem plugActions_countsExact :
    ∃ s, Machine.run (Machine.checked threadsStep) (.ok .init) plugActions = some (.ok s) ∧
      CountsExact s := by
  have hguard : Machine.Guarded (Machine.checked threadsStep) (Machine.OnOk PopulatesEmpty)
      (.ok .init) plugActions := by
    decide +kernel
  have hrun : ((Machine.run (Machine.checked threadsStep) (.ok .init) plugActions).bind
      Except.toOption).isSome := by
    decide +kernel
  obtain ⟨s, hs⟩ := Machine.exists_ok hrun
  exact ⟨s, hs, threads_countsExact hguard hs⟩

end Devmap

end Zigbee
