-- SUMMARY: The registry implementations, and the calls that look them up, add to them and drop them (registry.c).
import ZigbeeService.Lib.Machine
import ZigbeeService.Lib.Number
import ZigbeeService.Devices.Map

/-!
# Registries

The implementations stand in one map for the whole process. A call locks the map twice: `reginit`
makes it if there is none, and the call's own section uses it. `edgex_registry_get_registry` then
goes on with a pointer into the map without the lock. The loggers and the pools of threads that are
handed through are left out.
-/

namespace Zigbee

open CLib

-- ---------------------------------------------------------------------------
-- Locations
-- ---------------------------------------------------------------------------

/-- `edgex_registry_hostport`. -/
structure HostPort where
  host : Text
  port : UInt16
  deriving DecidableEq, Repr

/-- `edgex_registry_parse_simple_url`. -/
def edgexRegistryParseSimpleUrl (location : Text) : Option HostPort :=
  match strchr location (chr ':') with
  | none => none
  | some colon =>
    if colon.drop 1 = [] then none
    else
      let (port, rest) := strtoul10 (colon.drop 1)
      if rest = [] then
        some ⟨strndup location (location.length - colon.length), UInt16.ofNat port⟩
      else none

-- ---------------------------------------------------------------------------
-- The map
-- ---------------------------------------------------------------------------

/-- `edgex_registry_impl`: its parser of locations, and its other functions. -/
structure RegistryImpl (loc ops : Type) where
  parser : Text → Option loc
  ops : ops

/-- `edgex_registry`. -/
structure EdgexRegistry (loc ops : Type) where
  location : loc
  impl : RegistryImpl loc ops

/-- `regmap`, and how many maps were made so far. -/
structure RegMap (loc ops : Type) where
  regmap : Option (EdgexMap (RegistryImpl loc ops))
  made : Nat

/-- A pointer to an implementation: a node of the map that was made last but so many. -/
structure ImplPtr where
  made : Nat
  name : Text

section Calls

variable {loc ops : Type}

/-- The map is dropped, or was never made. -/
def RegMap.initial : RegMap loc ops := ⟨none, 0⟩

/-- `reginit`, where `consulimpl` is the implementation it fills in. -/
def reginit (consulimpl : RegistryImpl loc ops) (m : RegMap loc ops) : RegMap loc ops :=
  match m.regmap with
  | some _ => m
  | none => ⟨some ((HashMap.init _ _).set (lit "consul") consulimpl), m.made + 1⟩

/-- What a pointer leads to. -/
def RegMap.deref (m : RegMap loc ops) (p : ImplPtr) : Checked (RegistryImpl loc ops) :=
  match m.regmap with
  | none => .error .danglingPointer
  | some map =>
    if p.made = m.made then
      match map.get p.name with
      | none => .error .danglingPointer
      | some impl => .ok impl
    else .error .danglingPointer

/-- The calls. -/
inductive RegistryCall (loc ops : Type) where
  | getRegistry (url : Text)
  | addImpl (name : Text) (impl : RegistryImpl loc ops)
  | fini

/-- What a call asks of the map. -/
inductive RegistryOp (loc ops : Type) where
  | get (name location : Text)
  | add (name : Text) (impl : RegistryImpl loc ops)
  | drop

/-- What a call returns. -/
inductive RegistryResult (loc ops : Type) where
  | registry (res : Option (EdgexRegistry loc ops))
  | added (res : Bool)
  | finished

/-- The call up to `reginit`. A URL without a delimiter asks for nothing. -/
def RegistryCall.op : RegistryCall loc ops → Option (RegistryOp loc ops)
  | .getRegistry url =>
    match strstr (lit "://") url with
    | none => none
    | some delim => some (.get (strndup url (url.length - delim.length)) (delim.drop 3))
  | .addImpl name impl => some (.add name impl)
  | .fini => some .drop

/-- A call in progress. -/
inductive RegistryThread (loc ops : Type) where
  | start (c : RegistryCall loc ops)
  /-- Behind `reginit`. -/
  | ready (op : RegistryOp loc ops)
  /-- Before the call of the parser. -/
  | found (impl : ImplPtr) (location : Text)
  /-- Before the implementation is copied. -/
  | parsed (impl : ImplPtr) (l : loc)
  | done (res : RegistryResult loc ops)

/-- The section of a call that has the map locked. -/
def RegistryOp.locked (m : RegMap loc ops) :
    RegistryOp loc ops → Checked (RegistryThread loc ops × RegMap loc ops)
  | .get name location =>
    match m.regmap with
    | none => .error .nullPointer
    | some map =>
      match map.get name with
      | none => return (.done (.registry none), m)
      | some _ => return (.found ⟨m.made, name⟩ location, m)
  | .add name impl =>
    match m.regmap with
    | none => .error .nullPointer
    | some map =>
      match map.get name with
      | none => return (.done (.added true), { m with regmap := some (map.set name impl) })
      | some _ => return (.done (.added false), m)
  | .drop =>
    match m.regmap with
    | none => .error .nullPointer
    | some _ => return (.done .finished, { m with regmap := none })

/-- A step of a call, up to its next use of the map. -/
def RegistryThread.step (consulimpl : RegistryImpl loc ops) (m : RegMap loc ops) :
    RegistryThread loc ops → Option (Checked (RegistryThread loc ops × RegMap loc ops))
  | .start c =>
    match c.op with
    | none => some (.ok (.done (.registry none), m))
    | some op => some (.ok (.ready op, reginit consulimpl m))
  | .ready op => some (op.locked m)
  | .found p location => some do
    let impl ← m.deref p
    match impl.parser location with
    | none => return (.done (.registry none), m)
    | some l => return (.parsed p l, m)
  | .parsed p l => some do
    let impl ← m.deref p
    return (.done (.registry (some ⟨l, impl⟩)), m)
  | .done _ => none

/-- The map and the calls, those that have returned with their results. -/
structure RegistryState (loc ops : Type) where
  map : RegMap loc ops
  threads : List (RegistryThread loc ops)

inductive RegistryAction (loc ops : Type) where
  /-- A thread makes a call. -/
  | call (c : RegistryCall loc ops)
  /-- The call in this place goes on. -/
  | step (place : Nat)

def registryStep (consulimpl : RegistryImpl loc ops) (s : RegistryState loc ops) :
    RegistryAction loc ops → Option (Checked (RegistryState loc ops))
  | .call c => some (.ok { s with threads := s.threads ++ [.start c] })
  | .step place =>
    (s.threads[place]?).bind fun t => (t.step consulimpl s.map).map fun r => do
      let (t, map) ← r
      return ⟨map, s.threads.set place t⟩

end Calls

-- ---------------------------------------------------------------------------
-- What the calls are for
-- ---------------------------------------------------------------------------

section Spec

variable {loc ops : Type} (consulimpl : RegistryImpl loc ops)

/-- The implementations by their names. -/
abbrev Registries (loc ops : Type) := Text → Option (RegistryImpl loc ops)

/-- Before anything is added. -/
def Registries.initial : Registries loc ops :=
  fun name => if name = lit "consul" then some consulimpl else none

/-- A registry of the implementation with this name, if there is one and it takes the location. -/
def Registries.open (regs : Registries loc ops) (name location : Text) :
    Option (EdgexRegistry loc ops) := do
  let impl ← regs name
  let l ← impl.parser location
  some ⟨l, impl⟩

/-- A call as one operation. -/
def RegistryOp.apply (regs : Registries loc ops) :
    RegistryOp loc ops → Registries loc ops × RegistryResult loc ops
  | .get name location => (regs, .registry (regs.open name location))
  | .add name impl =>
    match regs name with
    | none => (Function.update regs name (some impl), .added true)
    | some _ => (regs, .added false)
  | .drop => (Registries.initial consulimpl, .finished)

/-- A call that has yet to take effect, or has its result. -/
inductive RegistryView (loc ops : Type) where
  | pending (op : RegistryOp loc ops)
  | done (res : RegistryResult loc ops)

structure RegistrySpec (loc ops : Type) where
  regs : Registries loc ops
  calls : List (RegistryView loc ops)

def RegistryCall.view (c : RegistryCall loc ops) : RegistryView loc ops :=
  match c.op with
  | none => .done (.registry none)
  | some op => .pending op

/-- The calls take effect one at a time. -/
def specStep (s : RegistrySpec loc ops) : RegistryAction loc ops → Option (RegistrySpec loc ops)
  | .call c => some { s with calls := s.calls ++ [c.view] }
  | .step place =>
    match s.calls[place]? with
    | some (.pending op) =>
      let (regs, res) := op.apply consulimpl s.regs
      some ⟨regs, s.calls.set place (.done res)⟩
    | _ => none

/-- The implementations in the map. -/
def RegMap.registries (m : RegMap loc ops) : Registries loc ops :=
  match m.regmap with
  | none => Registries.initial consulimpl
  | some map => map.get

/-- A call is seen to have its result from its locked section on. -/
def RegistryThread.view (m : RegMap loc ops) : RegistryThread loc ops → RegistryView loc ops
  | .start c => c.view
  | .ready op => .pending op
  | .found p location =>
    .done (.registry ((m.deref p).toOption.bind fun impl =>
      (impl.parser location).bind fun l => some ⟨l, impl⟩))
  | .parsed p l => .done (.registry ((m.deref p).toOption.bind fun impl => some ⟨l, impl⟩))
  | .done res => .done res

def RegistryState.view (s : RegistryState loc ops) : RegistrySpec loc ops :=
  ⟨s.map.registries consulimpl, s.threads.map (RegistryThread.view s.map)⟩

end Spec

-- ---------------------------------------------------------------------------
-- Steps
-- ---------------------------------------------------------------------------

section Steps

variable {loc ops : Type} {consulimpl : RegistryImpl loc ops} {m m' : RegMap loc ops}

/-- A call that has not begun to use the map, or does not use it any more. -/
def RegistryThread.Idle : RegistryThread loc ops → Prop
  | .start _ | .done _ => True
  | _ => False

instance : ∀ t : RegistryThread loc ops, Decidable t.Idle
  | .start _ | .done _ => .isTrue trivial
  | .ready _ | .found _ _ | .parsed _ _ => .isFalse id

/-- The call that drops the map, before it does. -/
def RegistryThread.drops : RegistryThread loc ops → Bool
  | .ready .drop => true
  | _ => false

/-- What a call relies on. -/
def RegistryThread.Safe (m : RegMap loc ops) : RegistryThread loc ops → Prop
  | .ready _ => m.regmap.isSome
  | .found p _ | .parsed p _ => ∃ impl, m.deref p = .ok impl
  | _ => True

/-- What the calls rely on in the one map, they can rely on in the other. -/
structure RegMap.Extends (m m' : RegMap loc ops) : Prop where
  isSome : m.regmap.isSome → m'.regmap.isSome
  deref : ∀ {p impl}, m.deref p = .ok impl → m'.deref p = .ok impl

theorem RegMap.Extends.refl (m : RegMap loc ops) : m.Extends m := ⟨id, id⟩

theorem RegMap.deref_eq_ok {p : ImplPtr} {impl : RegistryImpl loc ops} :
    m.deref p = .ok impl ↔
      ∃ map, m.regmap = some map ∧ p.made = m.made ∧ map.get p.name = some impl := by
  rw [RegMap.deref]
  cases m.regmap with
  | none => simp
  | some map =>
    by_cases hmade : p.made = m.made
    · cases hget : map.get p.name <;> simp [hmade, hget]
    · simp [hmade]

theorem reginit_extends (consulimpl : RegistryImpl loc ops) (m : RegMap loc ops) :
    m.Extends (reginit consulimpl m) := by
  obtain ⟨regmap, made⟩ := m
  cases regmap with
  | some map => exact .refl _
  | none =>
    refine ⟨nofun, fun h => ?_⟩
    obtain ⟨map, hmap, -⟩ := RegMap.deref_eq_ok.mp h
    cases hmap

theorem registries_reginit (consulimpl : RegistryImpl loc ops) (m : RegMap loc ops) :
    (reginit consulimpl m).registries consulimpl = m.registries consulimpl := by
  obtain ⟨regmap, made⟩ := m
  cases regmap with
  | some map => rfl
  | none =>
    funext name
    exact HashMap.get_set _ _ _ name

/-- An implementation that is added takes no place of another. -/
theorem set_extends {map : EdgexMap (RegistryImpl loc ops)} {name : Text}
    (impl : RegistryImpl loc ops) (hmap : m.regmap = some map) (hnew : map.get name = none) :
    m.Extends { m with regmap := some (map.set name impl) } := by
  refine ⟨fun _ => rfl, fun {p impl'} h => ?_⟩
  obtain ⟨map', hmap', hmade, hget⟩ := RegMap.deref_eq_ok.mp h
  obtain rfl := Option.some.inj (hmap.symm.trans hmap')
  have hne : p.name ≠ name := by
    intro heq
    rw [heq, hnew] at hget
    cases hget
  refine RegMap.deref_eq_ok.mpr ⟨_, rfl, hmade, ?_⟩
  rw [HashMap.get_set, if_neg hne]
  exact hget

/-- Calls that do not use the map do not depend on it. -/
theorem RegistryThread.Idle.keeps {t : RegistryThread loc ops} (h : t.Idle)
    (m m' : RegMap loc ops) : t.Safe m' ∧ t.view m' = t.view m := by
  cases t with
  | start | done => exact ⟨trivial, rfl⟩
  | ready | found | parsed => exact h.elim

theorem RegistryThread.Safe.keeps {t : RegistryThread loc ops} (h : t.Safe m)
    (hext : m.Extends m') : t.Safe m' ∧ t.view m' = t.view m := by
  cases t with
  | start | done => exact ⟨trivial, rfl⟩
  | ready op => exact ⟨hext.isSome h, rfl⟩
  | found p | parsed p =>
    obtain ⟨impl, hderef⟩ := h
    refine ⟨⟨impl, hext.deref hderef⟩, ?_⟩
    rw [RegistryThread.view, RegistryThread.view, hderef, hext.deref hderef]

theorem registries_of_some (consulimpl : RegistryImpl loc ops)
    {map : EdgexMap (RegistryImpl loc ops)} (hmap : m.regmap = some map) :
    m.registries consulimpl = map.get := by
  rw [RegMap.registries, hmap]

/-- The locked section of a call is the whole call, as it is seen. -/
theorem locked_eq (consulimpl : RegistryImpl loc ops) (op : RegistryOp loc ops)
    (h : m.regmap.isSome) :
    ∃ t' m', op.locked m = .ok (t', m') ∧ t'.Safe m' ∧ (op = .drop ∨ m.Extends m') ∧
      ∃ res, op.apply consulimpl (m.registries consulimpl) = (m'.registries consulimpl, res) ∧
        t'.view m' = .done res := by
  obtain ⟨map, hmap⟩ := Option.isSome_iff_exists.mp h
  have hregs := registries_of_some consulimpl hmap
  cases op with
  | get name location =>
    cases hget : map.get name with
    | none =>
      refine ⟨.done (.registry none), m, ?_, trivial, .inr (.refl m), _, rfl, ?_⟩
      · rw [RegistryOp.locked, hmap]
        simp only [hget, Checked.pure_eq]
      · rw [RegistryThread.view, Registries.open, hregs, hget]
        rfl
    | some impl =>
      have hderef : m.deref ⟨m.made, name⟩ = .ok impl :=
        RegMap.deref_eq_ok.mpr ⟨map, hmap, rfl, hget⟩
      refine ⟨.found ⟨m.made, name⟩ location, m, ?_, ⟨impl, hderef⟩, .inr (.refl m), _, rfl, ?_⟩
      · rw [RegistryOp.locked, hmap]
        simp only [hget, Checked.pure_eq]
      · rw [RegistryThread.view, Registries.open, hregs, hget, hderef]
        rfl
  | add name impl =>
    cases hget : map.get name with
    | none =>
      refine ⟨.done (.added true), { m with regmap := some (map.set name impl) }, ?_, trivial,
        .inr (set_extends impl hmap hget), .added true, ?_, rfl⟩
      · rw [RegistryOp.locked, hmap]
        simp only [hget, Checked.pure_eq]
      · simp only [RegistryOp.apply, hregs, hget,
          registries_of_some consulimpl (m := ⟨some _, m.made⟩) rfl]
        refine Prod.ext (funext fun k => ?_) rfl
        exact (Function.update_apply _ _ _ k).trans (HashMap.get_set map name impl k).symm
    | some impl' =>
      refine ⟨.done (.added false), m, ?_, trivial, .inr (.refl m), .added false, ?_, rfl⟩
      · rw [RegistryOp.locked, hmap]
        simp only [hget, Checked.pure_eq]
      · simp only [RegistryOp.apply, hregs, hget]
  | drop =>
    refine ⟨.done .finished, { m with regmap := none }, ?_, trivial, .inl rfl, .finished, rfl, rfl⟩
    rw [RegistryOp.locked, hmap]
    rfl

/-- A step is not seen, or it is the one in which the call takes effect. -/
def Advances (consulimpl : RegistryImpl loc ops) (t : RegistryThread loc ops)
    (m : RegMap loc ops) (t' : RegistryThread loc ops) (m' : RegMap loc ops) : Prop :=
  (t'.view m' = t.view m ∧ m'.registries consulimpl = m.registries consulimpl) ∨
    ∃ op res, t.view m = .pending op ∧
      op.apply consulimpl (m.registries consulimpl) = (m'.registries consulimpl, res) ∧
      t'.view m' = .done res

/-- A step of a call that can rely on the map. -/
theorem step_advances {t : RegistryThread loc ops} (h : t.Safe m)
    {r : Checked (RegistryThread loc ops × RegMap loc ops)} (hr : t.step consulimpl m = some r) :
    ∃ t' m', r = .ok (t', m') ∧ t'.Safe m' ∧ (t = .ready .drop ∨ m.Extends m') ∧
      Advances consulimpl t m t' m' := by
  cases t with
  | start c =>
    rw [RegistryThread.step] at hr
    cases hop : c.op with
    | none =>
      simp only [hop] at hr
      cases hr
      refine ⟨_, m, rfl, trivial, .inr (.refl m), .inl ⟨?_, rfl⟩⟩
      rw [RegistryThread.view, RegistryThread.view, RegistryCall.view, hop]
    | some op =>
      simp only [hop] at hr
      cases hr
      refine ⟨_, _, rfl, ?_, .inr (reginit_extends consulimpl m),
        .inl ⟨?_, registries_reginit consulimpl m⟩⟩
      · rw [RegistryThread.Safe, reginit]
        cases hmap : m.regmap <;> simp [hmap]
      · rw [RegistryThread.view, RegistryThread.view, RegistryCall.view, hop]
  | ready op =>
    obtain ⟨t', m', hlocked, hsafe, hext, res, happly, hview⟩ := locked_eq consulimpl op h
    cases hr
    refine ⟨t', m', hlocked, hsafe, ?_, .inr ⟨op, res, rfl, happly, hview⟩⟩
    exact hext.imp_left (congrArg _)
  | found p location =>
    obtain ⟨impl, hderef⟩ := h
    cases hr
    cases hparse : impl.parser location with
    | none =>
      refine ⟨.done (.registry none), m, ?_, trivial, .inr (.refl m), .inl ⟨?_, rfl⟩⟩
      · rw [hderef, Checked.ok_bind]
        simp only [hparse, Checked.pure_eq]
      · simp [RegistryThread.view, hderef, Except.toOption, hparse]
    | some l =>
      refine ⟨.parsed p l, m, ?_, ⟨impl, hderef⟩, .inr (.refl m), .inl ⟨?_, rfl⟩⟩
      · rw [hderef, Checked.ok_bind]
        simp only [hparse, Checked.pure_eq]
      · simp [RegistryThread.view, hderef, Except.toOption, hparse]
  | parsed p l =>
    obtain ⟨impl, hderef⟩ := h
    cases hr
    refine ⟨.done (.registry (some ⟨l, impl⟩)), m, ?_, trivial, .inr (.refl m), .inl ⟨?_, rfl⟩⟩
    · rw [hderef]
      rfl
    · simp [RegistryThread.view, hderef, Except.toOption]
  | done res => cases hr

end Steps

-- ---------------------------------------------------------------------------
-- Runs
-- ---------------------------------------------------------------------------

section Runs

open Machine

variable {loc ops : Type} {consulimpl : RegistryImpl loc ops}

/-- `edgex_registry_fini` drops the map while no other call uses it. -/
def DropsAlone (s : RegistryState loc ops) : RegistryAction loc ops → Prop
  | .call _ => True
  | .step place =>
    (s.threads[place]?).any RegistryThread.drops → ∀ t ∈ s.threads.eraseIdx place, t.Idle

instance (s : RegistryState loc ops) : ∀ a, Decidable (DropsAlone s a)
  | .call _ => .isTrue trivial
  | .step place => inferInstanceAs (Decidable
      ((s.threads[place]?).any RegistryThread.drops → ∀ t ∈ s.threads.eraseIdx place, t.Idle))

def RegistryState.Safe (s : RegistryState loc ops) : Prop := ∀ t ∈ s.threads, t.Safe s.map

/-- A step of one call changes nothing for the others. -/
theorem view_set {threads : List (RegistryThread loc ops)} {m m' : RegMap loc ops} {place : Nat}
    (t' : RegistryThread loc ops)
    (hkeep : ∀ i t, threads[i]? = some t → i ≠ place → t.view m' = t.view m) :
    (threads.set place t').map (RegistryThread.view m') =
      (threads.map (RegistryThread.view m)).set place (t'.view m') := by
  refine List.ext_getElem? fun i => ?_
  rw [List.getElem?_map, List.getElem?_set, List.getElem?_set, List.length_map,
    List.getElem?_map]
  by_cases hi : place = i
  · rw [if_pos hi, if_pos hi]
    split <;> rfl
  · rw [if_neg hi, if_neg hi]
    cases hget : threads[i]? with
    | none => rfl
    | some t => exact congrArg some (hkeep i t hget fun heq => hi heq.symm)

theorem registryStep_simulated {s : RegistryState loc ops} {a : RegistryAction loc ops}
    {r : Checked (RegistryState loc ops)} (hsafe : s.Safe) (hguard : DropsAlone s a)
    (hstep : registryStep consulimpl s a = some r) :
    ∃ s', r = .ok s' ∧ s'.Safe ∧
      (s'.view consulimpl = s.view consulimpl ∨
        specStep consulimpl (s.view consulimpl) a = some (s'.view consulimpl)) := by
  obtain ⟨map, threads⟩ := s
  cases a with
  | call c =>
    cases hstep
    refine ⟨_, rfl, ?_, .inr ?_⟩
    · intro t ht
      rcases List.mem_append.mp ht with hold | hnew
      · exact hsafe t hold
      · rw [List.mem_singleton.mp hnew]
        trivial
    · simp [specStep, RegistryState.view, RegistryThread.view]
  | step place =>
    obtain ⟨t, ht, hstep⟩ := Option.bind_eq_some_iff.mp hstep
    obtain ⟨r', hr', rfl⟩ := Option.map_eq_some_iff.mp hstep
    obtain ⟨t', m', rfl, hsafe', hext, hadv⟩ := step_advances (hsafe t (List.mem_of_getElem? ht)) hr'
    have hkeep : ∀ i u, threads[i]? = some u → i ≠ place → u.Safe m' ∧ u.view m' = u.view map := by
      intro i u hu hne
      rcases hext with rfl | hext
      · have hmem : u ∈ threads.eraseIdx place :=
          List.mem_eraseIdx_iff_getElem?.mpr ⟨i, hne, hu⟩
        have hdrops : (threads[place]?).any RegistryThread.drops := by
          rw [ht]
          rfl
        exact (hguard hdrops u hmem).keeps map m'
      · exact (hsafe u (List.mem_of_getElem? hu)).keeps hext
    have hviews := view_set t' fun i u hu hne => (hkeep i u hu hne).2
    refine ⟨_, rfl, ?_, ?_⟩
    · intro u hu
      obtain ⟨i, hi⟩ := List.mem_iff_getElem?.mp hu
      rw [List.getElem?_set] at hi
      by_cases hplace : place = i
      · rw [if_pos hplace] at hi
        split at hi
        · cases hi
          exact hsafe'
        · cases hi
      · rw [if_neg hplace] at hi
        exact (hkeep i u hi fun heq => hplace heq.symm).1
    · have hcall : (threads.map (RegistryThread.view map))[place]? = some (t.view map) := by
        rw [List.getElem?_map, ht]
        rfl
      rcases hadv with ⟨hview, hregs⟩ | ⟨op, res, hpending, happly, hdone⟩
      · refine .inl ?_
        rw [RegistryState.view, RegistryState.view, hregs, hviews, hview]
        obtain ⟨hlt, hget⟩ := List.getElem?_eq_some_iff.mp hcall
        rw [← hget, List.set_getElem_self]
      · refine .inr ?_
        rw [hpending] at hcall
        rw [RegistryState.view, RegistryState.view, hviews, hdone, specStep]
        simp only [hcall, happly]

theorem initial_consul (consulimpl : RegistryImpl loc ops) :
    Registries.initial consulimpl (lit "consul") = some consulimpl := if_pos rfl

/-- No call takes Consul's name. -/
theorem apply_consul {regs : Registries loc ops} (op : RegistryOp loc ops)
    (h : regs (lit "consul") = some consulimpl) :
    (op.apply consulimpl regs).1 (lit "consul") = some consulimpl := by
  cases op with
  | get name location => exact h
  | add name impl =>
    cases hname : regs name with
    | some impl' =>
      simp only [RegistryOp.apply, hname]
      exact h
    | none =>
      have hne : lit "consul" ≠ name := by
        rintro rfl
        rw [h] at hname
        cases hname
      simp only [RegistryOp.apply, hname]
      exact (Function.update_of_ne hne _ _).trans h
  | drop => exact initial_consul consulimpl

theorem specStep_consul {s s' : RegistrySpec loc ops} {a : RegistryAction loc ops}
    (hs : s.regs (lit "consul") = some consulimpl) (hstep : specStep consulimpl s a = some s') :
    s'.regs (lit "consul") = some consulimpl := by
  cases a with
  | call c =>
    cases hstep
    exact hs
  | step place =>
    rw [specStep] at hstep
    split at hstep
    · next op hop =>
      cases hstep
      exact apply_consul op hs
    · cases hstep

end Runs

/-- While `edgex_registry_fini` has the map to itself, calls in any interleaving do not fail. Each
takes effect at one of its own steps, with the result of one operation on the implementations by
their names: the first one that is added under a name stays, and Consul's is always there. -/
theorem registry_linearizes {loc ops : Type} (consulimpl : RegistryImpl loc ops)
    {as : List (RegistryAction loc ops)} {r : Checked (RegistryState loc ops)}
    (halone : Machine.Guarded (Machine.checked (registryStep consulimpl))
      (Machine.OnOk DropsAlone) (.ok ⟨RegMap.initial, []⟩) as)
    (hrun : Machine.run (Machine.checked (registryStep consulimpl)) (.ok ⟨RegMap.initial, []⟩) as =
      some r) :
    ∃ s bs, r = .ok s ∧ bs.Sublist as ∧
      Machine.run (specStep consulimpl) ⟨Registries.initial consulimpl, []⟩ bs =
        some (s.view consulimpl) ∧
      s.map.registries consulimpl (lit "consul") = some consulimpl := by
  have hinit : (⟨RegMap.initial, []⟩ : RegistryState loc ops).Safe := List.forall_mem_nil _
  obtain ⟨s, bs, hr, -, hsub, hspec⟩ := halone.checked_simulated (RegistryState.view consulimpl)
    (specStep consulimpl) registryStep_simulated hrun hinit
  have hconsul := Machine.run_invariant (I := fun t => t.regs (lit "consul") = some consulimpl)
    specStep_consul hspec (initial_consul consulimpl)
  exact ⟨s, bs, hr, hsub, hspec, hconsul⟩

/-- One thread asks for a registry while another adds an implementation; then the map is dropped. -/
def registryActions : List (RegistryAction HostPort Unit) :=
  [.call (.getRegistry (lit "consul://localhost:8500")),
    .call (.addImpl (lit "etcd") ⟨edgexRegistryParseSimpleUrl, ()⟩),
    .step 0, .step 1, .step 0, .step 1, .step 0, .step 0, .call .fini, .step 2, .step 2]

theorem registry_linearizes_threads :
    ∃ s bs, Machine.run (Machine.checked (registryStep ⟨edgexRegistryParseSimpleUrl, ()⟩))
        (.ok ⟨RegMap.initial, []⟩) registryActions = some (.ok s) ∧
      bs.Sublist registryActions ∧
      Machine.run (specStep ⟨edgexRegistryParseSimpleUrl, ()⟩)
        ⟨Registries.initial ⟨edgexRegistryParseSimpleUrl, ()⟩, []⟩ bs =
          some (s.view ⟨edgexRegistryParseSimpleUrl, ()⟩) ∧
      s.map.registries ⟨edgexRegistryParseSimpleUrl, ()⟩ (lit "consul") =
        some ⟨edgexRegistryParseSimpleUrl, ()⟩ := by
  have halone : Machine.Guarded
      (Machine.checked (registryStep ⟨edgexRegistryParseSimpleUrl, ()⟩))
      (Machine.OnOk DropsAlone) (.ok ⟨RegMap.initial, []⟩) registryActions := by decide +kernel
  obtain ⟨s, hrun⟩ := Machine.exists_ok (r := Machine.run
    (Machine.checked (registryStep ⟨edgexRegistryParseSimpleUrl, ()⟩))
    (.ok ⟨RegMap.initial, []⟩) registryActions) (by decide +kernel)
  obtain ⟨s', bs, hs, h⟩ := registry_linearizes _ halone hrun
  cases hs
  exact ⟨s, bs, hrun, h⟩

end Zigbee
