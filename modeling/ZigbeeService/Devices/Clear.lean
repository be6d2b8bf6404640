-- SUMMARY: edgex_devmap_clear from any reachable map: what it drops, and which lookups are safe behind it.
import ZigbeeService.Devices.Backed

/-!
# Clearing the device map

`edgex_devmap_clear` releases every device of the map and empties `devices`. It leaves `name_to_id`
alone, whose entries point into the devices that go.
-/

namespace Zigbee

open CLib

namespace Devmap

section Steps

variable {s t s' : Threads} {a : Action}

-- ---------------------------------------------------------------------------
-- What is dropped
-- ---------------------------------------------------------------------------

open Classical in
/-- One if the map held the device in `s` and does not in `t`. -/
noncomputable def dropped (s t : Threads) (a : ObjAddr) : Nat :=
  if s.map.InMap a ∧ ¬ t.map.InMap a then 1 else 0

/-- The map is being cleared since `s`: each device that is gone from it has lost one reference for
that, and one for each that was given back since. -/
structure ClearedSince (s t : Threads) : Prop where
  phase : (∃ key iter, t.phase = .clearing key iter) ∨ t.phase = .cleared
  names : t.map.nameToId = s.map.nameToId
  inMap : ∀ a, t.map.InMap a → s.map.InMap a
  refs : ∀ a, t.map.refsOf a + s.borrows.count a + dropped s t a =
    s.map.refsOf a + t.borrows.count a

theorem dropped_congr {s t t' : Threads} {b : ObjAddr} (h : t'.map.InMap b ↔ t.map.InMap b) :
    dropped s t' b = dropped s t b := by
  unfold dropped
  rw [h]

/-- A release takes one reference from one device. -/
theorem release_refsOf {map map' : Devmap} {a : ObjAddr} (hpos : 0 < map.refsOf a)
    (h : map.release a = .ok map') :
    map'.refsOf a + 1 = map.refsOf a ∧ ∀ b, b ≠ a → map'.refsOf b = map.refsOf b := by
  obtain ⟨d, hd, ⟨hone, rfl⟩ | ⟨-, rfl⟩⟩ := release_eq_ok h
  · refine ⟨?_, fun b hb => ?_⟩
    · rw [refsOf_of_some hd, hone, refsOf_of_none]
      rw [Store.find?_free, if_pos rfl]
    · simp only [refsOf, Store.find?_free, if_neg hb]
  · refine ⟨?_, fun b hb => ?_⟩
    · rw [refsOf_of_some hd] at hpos ⊢
      rw [refsOf_of_some (by rw [Store.find?_write hd, if_pos rfl])]
      exact Nat.sub_add_cancel hpos
    · simp only [refsOf, Store.find?_write hd, if_neg hb]

theorem clearPhase_cases (next : Option (Text × Iter)) :
    (∃ key iter, clearPhase next = .clearing key iter) ∨ clearPhase next = .cleared := by
  cases next with
  | none => exact .inr rfl
  | some r => exact .inl ⟨r.1, r.2, rfl⟩

/-- The first step of `edgex_devmap_clear` drops nothing yet. -/
theorem clearedSince_begin (hidle : s.phase = .reading [])
    (hstep : threadsStep s .clear = some (.ok s')) : ClearedSince s s' := by
  obtain ⟨map, phase, borrows⟩ := s
  obtain rfl : phase = .reading [] := hidle
  cases hstep
  exact {
    phase := clearPhase_cases _
    names := rfl
    inMap := fun _ h => h
    refs := fun a => by simp [dropped] }

/-- A device stands under its own id only: taking that id out of the map takes out this device. -/
theorem Backed.inMap_remove {map : Devmap} {borrows : List ObjAddr} (h : map.Backed borrows)
    {e : ObjAddr} {d : DeviceObject} (he : map.devices.get d.id = some e)
    (hd : map.objects.find? e = some d) (m : Devmap) (b : ObjAddr) :
    InMap { m with devices := map.devices.remove d.id } b ↔ map.InMap b ∧ b ≠ e := by
  unfold InMap
  simp only [HashMap.get_remove]
  constructor
  · rintro ⟨id, hb⟩
    split at hb
    · cases hb
    · next hne =>
      refine ⟨⟨id, hb⟩, ?_⟩
      rintro rfl
      obtain ⟨f, hf, hid, -⟩ := h.device hb
      cases hd.symm.trans hf
      exact hne hid.symm
  · rintro ⟨⟨id, hb⟩, hne⟩
    refine ⟨id, ?_⟩
    rw [if_neg, hb]
    rintro rfl
    cases he.symm.trans hb
    exact hne rfl

section Rounds

variable {map m : Devmap} {phase : Phase} {borrows : List ObjAddr}

/-- A borrower gives a reference back. -/
theorem ClearedSince.release {dev : ObjAddr} (h : ClearedSince s ⟨map, phase, borrows⟩)
    (hbacked : map.Backed borrows) (hmem : dev ∈ borrows) (hrelease : map.release dev = .ok m) :
    ClearedSince s ⟨m, phase, borrows.erase dev⟩ := by
  have hcount := List.count_pos_iff.mpr hmem
  obtain ⟨hdev, hother⟩ :=
    release_refsOf (Nat.lt_of_lt_of_le hcount (hbacked.counts dev)) hrelease
  obtain ⟨hdevices, hnames⟩ := release_indexes hrelease
  have hin (b : ObjAddr) : m.InMap b ↔ map.InMap b := by
    unfold InMap
    rw [hdevices]
  refine ⟨h.phase, hnames.trans h.names, fun b hb => h.inMap b ((hin b).mp hb), fun b => ?_⟩
  have hrefs := h.refs b
  rw [dropped_congr (t := ⟨map, phase, borrows⟩) (hin b)]
  dsimp only at hrefs ⊢
  by_cases hb : b = dev
  · subst hb
    rw [List.count_erase_self]
    omega
  · rw [hother b hb, List.count_erase_of_ne hb]
    exact hrefs

/-- One round drops the map's reference to the device it takes out. -/
theorem ClearedSince.clearRound {e : ObjAddr} {d : DeviceObject}
    (h : ClearedSince s ⟨map, phase, borrows⟩) (hbacked : map.Backed borrows)
    (he : map.devices.get d.id = some e) (hd : map.objects.find? e = some d)
    (hrelease : map.release e = .ok m) (next : Option (Text × Iter)) :
    ClearedSince s ⟨{ m with devices := map.devices.remove d.id }, clearPhase next, borrows⟩ := by
  have hpos : 0 < map.refsOf e := by
    obtain ⟨f, hf, -, hlt⟩ := hbacked.device he
    rw [refsOf_of_some hf]
    exact Nat.lt_of_le_of_lt (Nat.zero_le _) hlt
  obtain ⟨hself, hother⟩ := release_refsOf hpos hrelease
  have hin := hbacked.inMap_remove he hd m
  refine ⟨clearPhase_cases _, (release_indexes hrelease).2.trans h.names,
    fun b hb => h.inMap b ((hin b).mp hb).1, fun b => ?_⟩
  have hrefs := h.refs b
  unfold dropped at hrefs ⊢
  dsimp only at hrefs ⊢
  rw [hin b]
  show m.refsOf b + _ + _ = _
  by_cases hb : b = e
  · subst hb
    have hold : map.InMap b := ⟨d.id, he⟩
    have hnew : s.map.InMap b := h.inMap b hold
    rw [if_neg (fun hor => hor.2 hold)] at hrefs
    rw [if_pos ⟨hnew, fun hand => hand.2 rfl⟩]
    omega
  · rw [hother b hb, and_iff_left hb]
    exact hrefs

end Rounds

theorem ClearedSince.step (h : ClearedSince s t) (hstands : t.Stands)
    (hstep : threadsStep t a = some (.ok s')) : ClearedSince s s' := by
  have hphase := h.phase
  cases threadsStep_stepsTo hstep with
  | @release map m phase borrows dev hmem hrelease =>
    have hbacked : map.Backed borrows := by
      obtain ⟨key, iter, rfl⟩ | rfl := hphase
      · exact hstands.1
      · exact hstands.1
    exact h.release hbacked hmem hrelease
  | clearRound hround =>
    obtain ⟨e, d, m, he, hd, rfl, hrelease, -, -, hround', -⟩ := hstands.1.clearRound hstands.2
    cases hround'.symm.trans hround
    exact h.clearRound hstands.1 he hd hrelease _
  | _ => obtain ⟨key, iter, hclearing⟩ | hcleared := hphase <;> contradiction

-- ---------------------------------------------------------------------------
-- Runs
-- ---------------------------------------------------------------------------

/-- `edgex_devmap_clear` comes to its end from every entry, without a fault. -/
theorem clear_terminates {n : Nat} (hstands : t.Stands)
    (hphase : (∃ key iter, t.phase = .clearing key iter) ∨ t.phase = .cleared)
    (hn : t.map.devices.entries.length = n) :
    ∃ t', Machine.run (Machine.checked threadsStep) (.ok t) (List.replicate n .clear) =
      some (.ok t') ∧ t'.phase = .cleared := by
  induction n generalizing t with
  | zero =>
    obtain ⟨key, iter, hclearing⟩ | hcleared := hphase
    · -- the walk stands at an entry, so there is one
      obtain ⟨map, phase, borrows⟩ := t
      obtain rfl : phase = .clearing key iter := hclearing
      have hat : map.devices.AtFirst key iter := hstands.2
      have hlen := hat.length_remove
      dsimp only at hn
      omega
    · exact ⟨t, rfl, hcleared⟩
  | succ n ih =>
    obtain ⟨map, phase, borrows⟩ := t
    obtain ⟨key, iter, hclearing⟩ | hcleared := hphase
    · obtain rfl : phase = .clearing key iter := hclearing
      obtain ⟨e, d, m, -, -, -, -, -, -, hround, -⟩ := hstands.1.clearRound hstands.2
      have hstep : threadsStep ⟨map, .clearing key iter, borrows⟩ .clear = some (.ok
          ⟨{ m with devices := map.devices.remove key },
            clearPhase (map.devices.next iter), borrows⟩) := by
        simp only [threadsStep, hround]
        rfl
      have hat : map.devices.AtFirst key iter := hstands.2
      have hlen := hat.length_remove
      obtain ⟨t', hrun, hend⟩ := ih (hstands.step hstep) (clearPhase_cases _) (by
        dsimp only at hn ⊢
        omega)
      refine ⟨t', ?_, hend⟩
      rw [List.replicate_succ, Machine.run_cons_eq_some]
      exact ⟨_, hstep, hrun⟩
    · obtain rfl : phase = .cleared := hcleared
      have hnil := hstands.2
      dsimp only at hn hnil
      rw [hnil] at hn
      cases hn

/-- Each device that the map held in `s` has lost one reference beside those that were given back,
every other one only these. -/
def DropsOnce (s t : Threads) : Prop :=
  ∀ a, (s.map.InMap a →
      t.map.refsOf a + 1 + s.borrows.count a = s.map.refsOf a + t.borrows.count a) ∧
    (¬ s.map.InMap a →
      t.map.refsOf a + s.borrows.count a = s.map.refsOf a + t.borrows.count a)

/-- Nothing is found under any id, and none of the lookups faults. -/
def IdsSafe (map : Devmap) : Prop := ∀ id, map.deviceByid id = .ok (none, map)

/-- Nothing is found under any name, and none of the lookups faults. -/
def NamesSafe (map : Devmap) : Prop := ∀ name, map.deviceByname name = .ok (none, map)

theorem get_eq_none_of_entries {m : EdgexMap ObjAddr} (h : m.entries = []) (key : Text) :
    m.get key = none := by
  apply Option.eq_none_iff_forall_ne_some.mpr
  intro v hv
  have hmem := HashMap.mem_entries.mpr hv
  rw [h] at hmem
  cases hmem

/-- On an empty map a lookup by name is safe exactly when the name has no entry: another one follows
the pointer behind it, to a freed device or to an id that is not there. -/
theorem namesSafe_iff {map : Devmap} (h : map.devices.entries = []) :
    map.NamesSafe ↔ ∀ n, map.nameToId.get n = none := by
  constructor
  · intro hsafe n
    cases hn : map.nameToId.get n with
    | none => rfl
    | some a =>
      have hlookup := hsafe n
      obtain ⟨found, hfind, -⟩ := Checked.bind_eq_ok.mp hlookup
      rw [findByname, hn] at hfind
      obtain ⟨d, -, hfind⟩ := Checked.bind_eq_ok.mp hfind
      rw [get_eq_none_of_entries h] at hfind
      cases hfind
  · intro hnone n
    rw [deviceByname, findByname, hnone]
    rfl

/-- The clearing of a reachable map comes to its end, empties the map, drops the map's reference to
each device once, and leaves lookups by id safe. Lookups by name are safe behind it exactly when no
name had an entry. -/
theorem clear_safe_iff {as : List Action}
    (hrun : Machine.run (Machine.checked threadsStep) (.ok .init) as = some (.ok s))
    (hidle : s.phase = .reading []) :
    (∃ n t, Machine.run (Machine.checked threadsStep) (.ok s) (List.replicate n .clear) =
        some (.ok t) ∧ t.phase = .cleared) ∧
      ∀ bs t, Machine.run (Machine.checked threadsStep) (.ok s) (.clear :: bs) = some (.ok t) →
        t.phase = .cleared →
          t.map.devices.entries = [] ∧ DropsOnce s t ∧ t.map.IdsSafe ∧
            (t.map.NamesSafe ↔ ∀ n, s.map.nameToId.get n = none) := by
  have hstands := Threads.stands_of_run hrun
  obtain ⟨map, phase, borrows⟩ := s
  obtain rfl : phase = .reading [] := hidle
  obtain ⟨s₁, hbegin⟩ : ∃ s₁, threadsStep ⟨map, .reading [], borrows⟩ .clear = some (.ok s₁) :=
    ⟨_, rfl⟩
  have hsince := clearedSince_begin rfl hbegin
  have hstands₁ := hstands.step hbegin
  refine ⟨?_, fun bs t hclear hend => ?_⟩
  · obtain ⟨t, ht, hend⟩ := clear_terminates hstands₁ hsince.phase rfl
    refine ⟨s₁.map.devices.entries.length + 1, t, ?_, hend⟩
    rw [List.replicate_succ, Machine.run_cons_eq_some]
    exact ⟨_, hbegin, ht⟩
  · obtain ⟨r, hr, hrest⟩ := Machine.run_cons_eq_some.mp hclear
    obtain rfl : Except.ok s₁ = r := Option.some.inj (hbegin.symm.trans hr)
    have hboth : ∀ {u a u'}, ClearedSince ⟨map, .reading [], borrows⟩ u ∧ Threads.Stands u → True →
        threadsStep u a = some (.ok u') →
          ClearedSince ⟨map, .reading [], borrows⟩ u' ∧ Threads.Stands u' :=
      fun h _ hstep => ⟨h.1.step h.2 hstep, h.2.step hstep⟩
    obtain ⟨hlast, hstandsLast⟩ :=
      Machine.checked_run_invariant hboth hrest (fun _ _ => trivial) ⟨hsince, hstands₁⟩
    obtain ⟨map', phase', borrows'⟩ := t
    obtain rfl : phase' = .cleared := hend
    have hnil : map'.devices.entries = [] := hstandsLast.2
    have hempty := get_eq_none_of_entries hnil
    have hout (a : ObjAddr) : ¬ map'.InMap a := by
      rintro ⟨id, hid⟩
      rw [hempty] at hid
      cases hid
    refine ⟨hnil, fun a => ⟨fun hin => ?_, fun hnot => ?_⟩, fun id => ?_, ?_⟩
    · have hrefs := hlast.refs a
      rw [dropped, if_pos ⟨hin, hout a⟩] at hrefs
      dsimp only at hrefs ⊢
      omega
    · have hrefs := hlast.refs a
      rw [dropped, if_neg fun hand => hnot hand.1] at hrefs
      exact hrefs
    · rw [deviceByid, hempty]
      rfl
    · rw [namesSafe_iff hnil, hlast.names]

end Steps

-- ---------------------------------------------------------------------------
-- A plug
-- ---------------------------------------------------------------------------

/-- A plug comes and goes before the map is cleared. -/
def plugGone : List Action :=
  [.wrlock (.replace (plug (lit "1") (lit "Plug"))), .write, .write, .write,
    .wrlock (.removeByid (lit "1")), .write, .write]

/-- A plug is in the map when it is cleared. -/
def plugStays : List Action :=
  [.wrlock (.replace (plug (lit "1") (lit "Plug"))), .write, .write, .write, .clear, .clear]

theorem clear_safe_plugGone :
    ∃ s, Machine.run (Machine.checked threadsStep) (.ok .init) plugGone = some (.ok s) ∧
      ∃ n t, Machine.run (Machine.checked threadsStep) (.ok s) (List.replicate n .clear) =
        some (.ok t) ∧ t.phase = .cleared := by
  have hrun : ((Machine.run (Machine.checked threadsStep) (.ok .init) plugGone).bind
      Except.toOption).isSome := by
    decide +kernel
  obtain ⟨s, hs⟩ := Machine.exists_ok hrun
  have hphase : s.phase = .reading [] := by
    cases hs
    rfl
  exact ⟨s, hs, (clear_safe_iff hs hphase).1⟩

/-- Behind the clearing, the name of the plug leads to a device that was freed. -/
theorem plugStays_byname_dangling :
    ∃ s, Machine.run (Machine.checked threadsStep) (.ok .init) plugStays = some (.ok s) ∧
      s.phase = .cleared ∧ s.map.deviceByname (lit "Plug") = .error .danglingPointer ∧
      ¬ s.map.NamesSafe := by
  have hrun : ((Machine.run (Machine.checked threadsStep) (.ok .init) plugStays).bind
      Except.toOption).isSome := by
    decide +kernel
  obtain ⟨s, hs⟩ := Machine.exists_ok hrun
  have hend : s.phase = .cleared ∧ s.map.deviceByname (lit "Plug") = .error .danglingPointer := by
    cases hs
    exact ⟨rfl, rfl⟩
  refine ⟨s, hs, hend.1, hend.2, fun hsafe => ?_⟩
  rw [hsafe (lit "Plug")] at hend
  cases hend.2

end Devmap

end Zigbee
