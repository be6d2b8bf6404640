-- SUMMARY: The device map under its lock: threads that read it, threads that change it, and threads that give devices back.
import ZigbeeService.Lib.Machine
import ZigbeeService.Devices.Effects

/-!
# The device map and its threads

The lock is held by any number of calls that read the map or by one that changes it. A step of such
a call goes from one operation on a counter to the next; `edgex_device_release` needs no lock and may
come between any two steps. `edgex_devmap_clear` does not lock either; it runs when the other calls
are over, and no call begins after it.
-/

namespace Zigbee

open CLib

namespace Devmap

/-- A call that has the map locked for reading. -/
inductive Reader where
  | byid (id : Text)
  | byname (name : Text)
  | forcmd (cmd : Text) (forGet : Bool) (iter : Iter) (result : List (ObjAddr × CmdInfo))
  /-- Before it unlocks. -/
  | done

/-- A call that has the map locked for writing. -/
inductive Writer where
  | running (c : Call)
  /-- `edgex_devmap_replace_device`, behind the removal. -/
  | adding (dev : Device)
  /-- Before it unlocks. -/
  | done

/-- What a thread asks of the map. -/
inductive Query where
  | byid (id : Text)
  | byname (name : Text)
  | forcmd (cmd : Text) (forGet : Bool)

/-- The first state of a query. -/
def Query.start : Query → Reader
  | .byid id => .byid id
  | .byname name => .byname name
  | .forcmd cmd forGet => .forcmd cmd forGet (HashMap.iter _ _) []

/-- Who is in the map. -/
inductive Phase where
  /-- These calls; nobody when there are none. -/
  | reading (calls : List Reader)
  | writing (call : Writer)
  /-- `edgex_devmap_clear`, at an entry. -/
  | clearing (key : Text) (iter : Iter)
  | cleared

/-- The map, who is in it, and the references that were given out and not yet given back. -/
structure Threads where
  map : Devmap
  phase : Phase
  borrows : List ObjAddr

/-- The start: a new map. -/
def Threads.init : Threads := ⟨alloc, .reading [], []⟩

inductive Action where
  /-- A thread locks the map for reading. -/
  | rdlock (q : Query)
  /-- The reading call in this place goes on. -/
  | read (place : Nat)
  /-- A thread locks the map for writing. -/
  | wrlock (c : Call)
  /-- The writing call goes on. -/
  | write
  /-- A thread gives a reference back. -/
  | release (dev : ObjAddr)
  /-- `edgex_devmap_clear` begins, or goes on. -/
  | clear

/-- A step of a reading call: its next state, and the reference it took. -/
def Reader.step (map : Devmap) : Reader → Checked (Reader × Option ObjAddr × Devmap)
  | .byid id => do
    let (r, map) ← map.deviceByid id
    return (.done, r, map)
  | .byname name => do
    let (r, map) ← map.deviceByname name
    return (.done, r, map)
  | .forcmd cmd forGet iter result => do
    match ← map.forcmdRound cmd forGet iter with
    | (none, map) => return (.done, none, map)
    | (some (iter, none), map) => return (.forcmd cmd forGet iter result, none, map)
    | (some (iter, some q), map) => return (.forcmd cmd forGet iter (q :: result), some q.1, map)
  | .done => return (.done, none, map)

/-- A step of a writing call. -/
def Writer.step (map : Devmap) : Writer → Checked (Writer × Devmap)
  | .running (.populate []) => return (.done, map)
  | .running (.populate (d :: devs)) => do
    let map ← map.populateDevice d
    return (.running (.populate devs), map)
  | .running (.replace dev) => do
    let (add, map) ← map.replaceOld dev
    return (if add then .adding dev else .done, map)
  | .running (.removeByname name) => do
    let map ← map.removedeviceByname name
    return (.done, map)
  | .running (.removeByid id) => do
    let map ← map.removedeviceByid id
    return (.done, map)
  | .adding dev => do
    let map ← map.addLocked dev
    return (.done, map)
  | .done => return (.done, map)

/-- What follows the visit of an entry by `edgex_devmap_clear`. -/
def clearPhase : Option (Text × Iter) → Phase
  | none => .cleared
  | some (key, iter) => .clearing key iter

/-- One step. It is not enabled while the lock is held otherwise. -/
def threadsStep (s : Threads) : Action → Option (Checked Threads)
  | .rdlock q =>
    match s.phase with
    | .reading calls => some (.ok { s with phase := .reading (calls ++ [q.start]) })
    | _ => none
  | .read place =>
    match s.phase with
    | .reading calls =>
      match calls[place]? with
      | none => none
      | some .done => some (.ok { s with phase := .reading (calls.eraseIdx place) })
      | some r => some do
        let (r, dev, map) ← r.step s.map
        return ⟨map, .reading (calls.set place r), dev.toList ++ s.borrows⟩
    | _ => none
  | .wrlock c =>
    match s.phase with
    | .reading [] => some (.ok { s with phase := .writing (.running c) })
    | _ => none
  | .write =>
    match s.phase with
    | .writing .done => some (.ok { s with phase := .reading [] })
    | .writing w => some do
      let (w, map) ← w.step s.map
      return { s with map := map, phase := .writing w }
    | _ => none
  | .release dev =>
    if dev ∈ s.borrows then some do
      let map ← s.map.release dev
      return { s with map := map, borrows := s.borrows.erase dev }
    else none
  | .clear =>
    match s.phase with
    | .reading [] =>
      some (.ok { s with phase := clearPhase (s.map.devices.next (HashMap.iter _ _)) })
    | .clearing key iter => some do
      let (next, map) ← s.map.clearRound key iter
      return { s with map := map, phase := clearPhase next }
    | _ => none

/-! ## The ways of a step -/

/-- What a step without a fault does. -/
inductive Threads.StepsTo : Threads → Action → Threads → Prop where
  | rdlock {map calls borrows} (q : Query) :
      StepsTo ⟨map, .reading calls, borrows⟩ (.rdlock q)
        ⟨map, .reading (calls ++ [q.start]), borrows⟩
  | readDone {map calls borrows place} (hcall : calls[place]? = some .done) :
      StepsTo ⟨map, .reading calls, borrows⟩ (.read place)
        ⟨map, .reading (calls.eraseIdx place), borrows⟩
  | read {map map' calls borrows place r r' dev} (hcall : calls[place]? = some r)
      (hread : r.step map = .ok (r', dev, map')) :
      StepsTo ⟨map, .reading calls, borrows⟩ (.read place)
        ⟨map', .reading (calls.set place r'), dev.toList ++ borrows⟩
  | wrlock {map borrows} (c : Call) :
      StepsTo ⟨map, .reading [], borrows⟩ (.wrlock c) ⟨map, .writing (.running c), borrows⟩
  | writeDone {map borrows} :
      StepsTo ⟨map, .writing .done, borrows⟩ .write ⟨map, .reading [], borrows⟩
  | write {map map' borrows w w'} (hwrite : w.step map = .ok (w', map')) :
      StepsTo ⟨map, .writing w, borrows⟩ .write ⟨map', .writing w', borrows⟩
  | release {map map' phase borrows dev} (hmem : dev ∈ borrows)
      (hrelease : map.release dev = .ok map') :
      StepsTo ⟨map, phase, borrows⟩ (.release dev) ⟨map', phase, borrows.erase dev⟩
  | clear {map borrows} :
      StepsTo ⟨map, .reading [], borrows⟩ .clear
        ⟨map, clearPhase (map.devices.next (HashMap.iter _ _)), borrows⟩
  | clearRound {map map' borrows key iter next}
      (hround : map.clearRound key iter = .ok (next, map')) :
      StepsTo ⟨map, .clearing key iter, borrows⟩ .clear ⟨map', clearPhase next, borrows⟩

theorem threadsStep_stepsTo {s s' : Threads} {a : Action}
    (h : threadsStep s a = some (.ok s')) : s.StepsTo a s' := by
  obtain ⟨map, phase, borrows⟩ := s
  cases a with
  | rdlock q =>
    cases phase with
    | reading calls =>
      cases h
      exact .rdlock q
    | _ => cases h
  | read place =>
    cases phase with
    | reading calls =>
      simp only [threadsStep] at h
      cases hcall : calls[place]? with
      | none =>
        simp only [hcall] at h
        cases h
      | some r =>
        simp only [hcall] at h
        cases r with
        | done =>
          cases h
          exact .readDone hcall
        | byid | byname | forcmd =>
          obtain ⟨⟨r', dev, m⟩, hread, h⟩ := Checked.bind_eq_ok.mp (Option.some.inj h)
          cases h
          exact .read hcall hread
    | _ => cases h
  | wrlock c =>
    cases phase with
    | reading calls =>
      cases calls with
      | nil =>
        cases h
        exact .wrlock c
      | cons r calls => cases h
    | _ => cases h
  | write =>
    cases phase with
    | writing w =>
      cases w with
      | done =>
        cases h
        exact .writeDone
      | running | adding =>
        obtain ⟨⟨w', m⟩, hwrite, h⟩ := Checked.bind_eq_ok.mp (Option.some.inj h)
        cases h
        exact .write hwrite
    | _ => cases h
  | release dev =>
    simp only [threadsStep] at h
    split at h
    case isFalse => cases h
    case isTrue hmem =>
      obtain ⟨m, hrelease, h⟩ := Checked.bind_eq_ok.mp (Option.some.inj h)
      cases h
      exact .release hmem hrelease
  | clear =>
    cases phase with
    | reading calls =>
      cases calls with
      | nil =>
        cases h
        exact .clear
      | cons r calls => cases h
    | clearing key iter =>
      obtain ⟨⟨next, m⟩, hround, h⟩ := Checked.bind_eq_ok.mp (Option.some.inj h)
      cases h
      exact .clearRound hround
    | _ => cases h

/-! ## Undisturbed calls -/

/-- The steps of a writing call, up to the one that unlocks. -/
theorem write_cons {map map' : Devmap} {w w' : Writer} {borrows : List ObjAddr}
    {as : List Action} (hw : w ≠ .done) (h : w.step map = .ok (w', map')) :
    Machine.run (Machine.checked threadsStep) (.ok ⟨map, .writing w, borrows⟩) (.write :: as) =
      Machine.run (Machine.checked threadsStep) (.ok ⟨map', .writing w', borrows⟩) as := by
  have hstep : Machine.checked threadsStep (.ok ⟨map, .writing w, borrows⟩) .write =
      some (.ok ⟨map', .writing w', borrows⟩) := by
    cases w with
    | done => exact absurd rfl hw
    | adding dev => simp [Machine.checked, threadsStep, h]
    | running c => simp [Machine.checked, threadsStep, h]
  rw [Machine.run, hstep]
  rfl

theorem write_done {map : Devmap} {borrows : List ObjAddr} :
    Machine.run (Machine.checked threadsStep) (.ok ⟨map, .writing .done, borrows⟩) [.write] =
      some (.ok ⟨map, .reading [], borrows⟩) := rfl

/-- A writing call that nobody disturbs does what the sequential call does. -/
theorem writing_eq_call {map map' : Devmap} {c : Call} {borrows : List ObjAddr}
    (h : map.call c = .ok map') :
    ∃ n, Machine.run (Machine.checked threadsStep) (.ok ⟨map, .writing (.running c), borrows⟩)
      (List.replicate n .write) = some (.ok ⟨map', .reading [], borrows⟩) := by
  cases c with
  | populate devs =>
    have h : map.populateDevices devs = .ok map' := h
    induction devs generalizing map with
    | nil =>
      cases h
      exact ⟨2, (write_cons (by simp) rfl).trans write_done⟩
    | cons d devs ih =>
      obtain ⟨m, hm, hrest⟩ := Checked.bind_eq_ok.mp h
      obtain ⟨n, hn⟩ := ih hrest hrest
      refine ⟨n + 1, (write_cons (by simp) ?_).trans hn⟩
      rw [Writer.step, hm]
      rfl
  | replace dev =>
    obtain ⟨⟨add, m⟩, hold, hadd⟩ := Checked.bind_eq_ok.mp h
    cases add with
    | false =>
      cases hadd
      refine ⟨2, (write_cons (by simp) ?_).trans write_done⟩
      rw [Writer.step, hold]
      rfl
    | true =>
      have hfirst : (Writer.running (.replace dev)).step map = .ok (.adding dev, m) := by
        rw [Writer.step, hold]
        rfl
      have hadd : m.addLocked dev = .ok map' := hadd
      have hsecond : (Writer.adding dev).step m = .ok (.done, map') := by
        rw [Writer.step, hadd]
        rfl
      exact ⟨3, (write_cons (by simp) hfirst).trans
        ((write_cons (by simp) hsecond).trans write_done)⟩
  | removeByname name =>
    have h : map.removedeviceByname name = .ok map' := h
    refine ⟨2, (write_cons (by simp) ?_).trans write_done⟩
    rw [Writer.step, h]
    rfl
  | removeByid id =>
    have h : map.removedeviceByid id = .ok map' := h
    refine ⟨2, (write_cons (by simp) ?_).trans write_done⟩
    rw [Writer.step, h]
    rfl

end Devmap

end Zigbee
