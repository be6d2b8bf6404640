-- SUMMARY: Callbacks from core-metadata: when the device map ends with metadata's devices.
import ZigbeeService.Lib.Machine
import ZigbeeService.Devices.Index
import ZigbeeService.Devices.Copy

/-!
# Callbacks

Every change of a device in core-metadata sends a callback, and each callback is handled by a thread
of its own. The thread first reads the device, then updates the device map; in between metadata may
change again, and other threads may update the map.
-/

namespace Zigbee

open CLib

/-! ## Metadata and the handlers -/

/-- A device as core-metadata keeps it: with its service and a profile whose operations name its
resources. The names of its protocols, and of their properties, are the keys of JSON objects. -/
structure MetaDevice where
  device : Device
  profile : DeviceProfile
  service : DeviceService
  profile_eq : device.profile = some profile
  service_eq : device.service = some service
  opsNamed : profile.OpsNamed
  protocolsNamed : ProtocolsNamed device.protocols

/-- The method of a callback. -/
inductive CallbackMethod where
  | post
  | put
  | delete
  deriving DecidableEq

/-- A thread that handles a callback for the device `id`. -/
inductive CallbackHandler where
  /-- It has not done anything yet. -/
  | received (method : CallbackMethod) (id : Text)
  /-- It has read the device from metadata. -/
  | fetched (id : Text) (newdev : MetaDevice)

def CallbackHandler.id : CallbackHandler → Text
  | .received _ id => id
  | .fetched id _ => id

/-- Metadata's devices, this service's device map, and the callbacks that are not handled yet. -/
structure Callbacks where
  store : Text → Option MetaDevice
  map : Devmap
  handlers : List CallbackHandler

/-- The start: no devices. -/
def Callbacks.init : Callbacks := ⟨fun _ => none, .alloc, []⟩

inductive CallbackAction where
  /-- A device is created in metadata. -/
  | create (d : MetaDevice)
  /-- A device is changed in metadata. -/
  | update (d : MetaDevice)
  /-- A device is deleted in metadata. -/
  | delete (id : Text)
  /-- The handler in this place goes on. -/
  | handle (place : Nat)

namespace Callbacks

/-- A change of metadata: it sends a callback. -/
def change (s : Callbacks) (id : Text) (d : Option MetaDevice) (method : CallbackMethod) :
    Callbacks :=
  { s with
    store := Function.update s.store id d
    handlers := s.handlers ++ [.received method id] }

/-- The handler in this place updates the map, and is done. -/
def finish (s : Callbacks) (place : Nat) (map : Checked Devmap) : Checked Callbacks := do
  let map ← map
  return { s with map := map, handlers := s.handlers.eraseIdx place }

/-- `edgex_device_handler_callback` in the service `name`, a step at a time. -/
def handle (name : Text) (s : Callbacks) (place : Nat) : CallbackHandler → Checked Callbacks
  | .received .delete id => s.finish place (s.map.removedeviceByid id)
  | .received _ id =>
    match s.store id with
    | none => s.finish place (.ok s.map)
    | some newdev => .ok { s with handlers := s.handlers.set place (.fetched id newdev) }
  | .fetched id newdev =>
    s.finish place <|
      if newdev.service.name ≠ name then s.map.removedeviceByid id
      else s.map.replaceDevice newdev.device

/-- One step. A device that is there cannot be created, and none that is not there changed. -/
def step (name : Text) (s : Callbacks) : CallbackAction → Option (Checked Callbacks)
  | .create d =>
    if (s.store d.device.id).isSome then none
    else some (.ok (s.change d.device.id (some d) .post))
  | .update d =>
    if (s.store d.device.id).isNone then none
    else some (.ok (s.change d.device.id (some d) .put))
  | .delete id =>
    if (s.store id).isNone then none else some (.ok (s.change id none .delete))
  | .handle place =>
    match s.handlers[place]? with
    | none => none
    | some h => some (s.handle name place h)

/-! ## Convergence -/

/-- The copy is this version of the device. Profile and service are records of their own, which a
device refers to by name. -/
structure SameVersion (c : DeviceInfo × Text) (d : MetaDevice) : Prop where
  fields : { c.1 with
    protocols := d.device.protocols
    autos := d.device.autos
    service := d.device.service } = d.device.toDeviceInfo
  protocols : SameProtocols c.1.protocols d.device.protocols
  autos : c.1.autos.Perm d.device.autos
  service : c.1.service.map DeviceService.name = some d.service.name
  profile : c.2 = d.profile.name

/-- The map agrees with metadata about the device `id`. -/
def Settled (name : Text) (s : Callbacks) (id : Text) : Prop :=
  match s.store id with
  | none => s.map.devices.get id = none
  | some d =>
    if d.service.name = name then ∃ c, s.map.copy id = some c ∧ SameVersion c d
    else s.map.devices.get id = none

/-! ## The condition -/

/-- Run to its end now, the handler brings the map to what metadata has. -/
def Current (store : Text → Option MetaDevice) : CallbackHandler → Prop
  | .received .delete id => store id = none
  | .received _ id => store id ≠ none
  | .fetched id newdev => store id = some newdev

/-- The handler's next step takes its device out of the map. -/
def Removes (name : Text) : CallbackHandler → Prop
  | .received .delete _ => True
  | .received _ _ => False
  | .fetched _ newdev => newdev.service.name ≠ name

/-- If the handler's device compares equal to the copy in the map, they have the same events. -/
def ComparesTruly (map : Devmap) : CallbackHandler → Prop
  | .received _ _ => True
  | .fetched id newdev => ∀ c, map.copy id = some c → c.1.name = newdev.device.name →
      c.2 = newdev.profile.name →
      edgexDeviceAutoeventsEqual c.1.autos newdev.device.autos = true →
      edgexProtocolsEqual c.1.protocols newdev.device.protocols = true →
      c.1.autos.Perm newdev.device.autos

/-- The handler's next step updates the map. -/
def Updates : CallbackHandler → Prop
  | .received .delete _ => True
  | .received _ _ => False
  | .fetched _ _ => True

/-- What a step must not do: take out a device that is not there, and leave the map behind metadata
with no handler left that would mend it. -/
def Keeps (name : Text) (s : Callbacks) : CallbackAction → Prop
  | .handle place => ∀ h, s.handlers[place]? = some h → Updates h →
      (Removes name h → s.map.devices.get h.id ≠ none) ∧
      (Current s.store h ∧ ComparesTruly s.map h ∨
        ∃ h' ∈ s.handlers.eraseIdx place, h'.id = h.id ∧ Current s.store h')
  | _ => True

/-! ## The invariant -/

/-- A handler looks at its own device in metadata. -/
theorem Current.congr {store store' : Text → Option MetaDevice} {h : CallbackHandler}
    (hcurrent : Current store h) (hid : store' h.id = store h.id) : Current store' h := by
  cases h with
  | received method id =>
    have hid : store' id = store id := hid
    cases method with
    | delete => exact hid.trans hcurrent
    | post => exact fun hnone => hcurrent (hid.symm.trans hnone)
    | put => exact fun hnone => hcurrent (hid.symm.trans hnone)
  | fetched id newdev =>
    have hid : store' id = store id := hid
    exact hid.trans hcurrent

structure Inv (name : Text) (s : Callbacks) : Prop where
  sound : s.map.Sound []
  registered : s.map.Registered DeviceProfile.OpsNamed
  ids : ∀ {id d}, s.store id = some d → d.device.id = id
  fetched : ∀ {id d}, .fetched id d ∈ s.handlers → d.device.id = id
  held : ∀ {id c}, s.map.copy id = some c →
    ProtocolsNamed c.1.protocols ∧ c.1.service.map DeviceService.name = some name
  settles : ∀ id, s.Settled name id ∨ ∃ h ∈ s.handlers, h.id = id ∧ Current s.store h

section Steps

variable {name : Text} {s : Callbacks}

theorem inv_init : Callbacks.init.Inv name where
  sound := ⟨{
    exact := RefsExact.empty.congr fun _ => Devmap.owed_of_not_inMap fun ⟨_, hid⟩ => nomatch hid
    device := fun h => nomatch h
    profile := fun h => nomatch h
    registered := fun h => nomatch h }, fun _ _ h => nomatch h⟩
  registered := fun _ _ h => nomatch h
  ids h := nomatch h
  fetched h := nomatch h
  held h := nomatch h
  settles _ := .inl rfl

/-- A change concerns one device; its own callback will mend the map. -/
theorem Inv.change {id : Text} {d : Option MetaDevice} {method : CallbackMethod}
    (h : s.Inv name) (hid : ∀ d' ∈ d, d'.device.id = id)
    (hmethod : Current (Function.update s.store id d) (.received method id)) :
    (s.change id d method).Inv name where
  sound := h.sound
  registered := h.registered
  ids := by
    intro id' d' hd'
    simp only [Callbacks.change, Function.update_apply] at hd'
    split at hd'
    · next heq =>
      rw [heq]
      exact hid d' hd'
    · exact h.ids hd'
  fetched := by
    intro id' d' hmem
    rcases List.mem_append.mp hmem with hmem | hmem
    · exact h.fetched hmem
    · cases List.mem_singleton.mp hmem
  held := h.held
  settles := by
    intro id'
    by_cases heq : id' = id
    · exact .inr ⟨.received method id, by simp [Callbacks.change], heq.symm, hmethod⟩
    · have hstore : (s.change id d method).store id' = s.store id' :=
        Function.update_of_ne heq _ _
      rcases h.settles id' with hsettled | ⟨h', hmem, hh', hcurrent⟩
      · refine .inl ?_
        rw [Settled, hstore]
        exact hsettled
      · refine .inr ⟨h', List.mem_append_left _ hmem, hh', ?_⟩
        exact hcurrent.congr (by rw [hh']; exact hstore)

/-- A handler that is left over when another one is done. -/
theorem mem_eraseIdx_of_ne {l : List CallbackHandler} {place : Nat} {h h' : CallbackHandler}
    (hplace : l[place]? = some h) (hmem : h' ∈ l) (hne : h' ≠ h) : h' ∈ l.eraseIdx place := by
  obtain ⟨j, hj⟩ := List.mem_iff_getElem?.mp hmem
  refine List.mem_eraseIdx_iff_getElem?.mpr ⟨j, ?_, hj⟩
  rintro rfl
  rw [hplace, Option.some_inj] at hj
  exact hne hj.symm

/-- A handler that has nothing to update: it reads the device, or finds that there is none. -/
theorem Inv.fetch {place : Nat} {method : CallbackMethod} {id : Text} {r : Checked Callbacks}
    (h : s.Inv name) (hplace : s.handlers[place]? = some (.received method id))
    (hmethod : method ≠ .delete) (hstep : s.handle name place (.received method id) = r) :
    ∃ s', r = .ok s' ∧ s'.Inv name := by
  have hcurrent : ∀ store : Text → Option MetaDevice,
      Current store (.received method id) ↔ store id ≠ none := by
    intro store
    cases method with
    | delete => exact absurd rfl hmethod
    | _ => exact Iff.rfl
  have hhandle : s.handle name place (.received method id) =
      match s.store id with
      | none => s.finish place (.ok s.map)
      | some newdev => .ok { s with handlers := s.handlers.set place (.fetched id newdev) } := by
    cases method with
    | delete => exact absurd rfl hmethod
    | _ => rfl
  rw [hhandle] at hstep
  cases hstore : s.store id with
  | none =>
    simp only [hstore] at hstep
    refine ⟨_, hstep.symm, h.sound, h.registered, h.ids, ?_, h.held, fun id' => ?_⟩
    · exact fun hmem => h.fetched (List.mem_of_mem_eraseIdx hmem)
    · refine (h.settles id').imp_right ?_
      rintro ⟨h', hmem, hid, hcur⟩
      refine ⟨h', mem_eraseIdx_of_ne hplace hmem ?_, hid, hcur⟩
      -- a handler that finds no device is not the one that mends the map
      rintro rfl
      exact (hcurrent s.store).mp hcur hstore
  | some newdev =>
    simp only [hstore] at hstep
    refine ⟨_, hstep.symm, h.sound, h.registered, h.ids, ?_, h.held, fun id' => ?_⟩
    · intro id' d hmem
      rcases List.mem_or_eq_of_mem_set hmem with hmem | heq
      · exact h.fetched hmem
      · cases heq
        exact h.ids hstore
    · refine (h.settles id').imp_right ?_
      rintro ⟨h', hmem, hid, hcur⟩
      -- the handler that would mend the map may be this one, with what it has just read
      by_cases heq : h' = .received method id
      · subst heq
        refine ⟨.fetched id newdev, ?_, hid, hstore⟩
        have hlt := (List.getElem?_eq_some_iff.mp hplace).1
        exact List.mem_set hlt _
      · obtain ⟨j, hj⟩ := List.mem_iff_getElem?.mp hmem
        refine ⟨h', ?_, hid, hcur⟩
        refine List.mem_iff_getElem?.mpr ⟨j, ?_⟩
        rw [List.getElem?_set_ne, hj]
        rintro rfl
        rw [hplace, Option.some_inj] at hj
        exact heq hj.symm

/-- An update of the map for one device leaves the others settled. -/
theorem Settled.congr {s' : Callbacks} {id : Text} (h : s.Settled name id)
    (hsound : s.map.Sound []) (hsound' : s'.map.Sound []) (hstore : s'.store id = s.store id)
    (hcopy : s'.map.copy id = s.map.copy id) : s'.Settled name id := by
  unfold Settled at *
  rw [hstore, ← hsound'.live.copy_eq_none_iff, hcopy, hsound.live.copy_eq_none_iff]
  exact h

/-- A handler that is done with its update: the other devices are settled as before, and its own is
now, or will be. -/
theorem Inv.updated {place : Nat} {h : CallbackHandler} {map' : Devmap} (hinv : s.Inv name)
    (hplace : s.handlers[place]? = some h) (hsound : map'.Sound [])
    (hregistered : map'.Registered DeviceProfile.OpsNamed)
    (hheld : ∀ {c}, map'.copy h.id = some c →
      ProtocolsNamed c.1.protocols ∧ c.1.service.map DeviceService.name = some name)
    (hother : ∀ id, id ≠ h.id → map'.copy id = s.map.copy id)
    (hfix : Settled name { s with map := map', handlers := s.handlers.eraseIdx place } h.id ∨
      ∃ h' ∈ s.handlers.eraseIdx place, h'.id = h.id ∧ Current s.store h') :
    Inv name { s with map := map', handlers := s.handlers.eraseIdx place } where
  sound := hsound
  registered := hregistered
  ids := hinv.ids
  fetched hmem := hinv.fetched (List.mem_of_mem_eraseIdx hmem)
  held := by
    intro id c hc
    by_cases hid : id = h.id
    · subst hid
      exact hheld hc
    · exact hinv.held (by rw [← hother id hid]; exact hc)
  settles := by
    intro id
    by_cases hid : id = h.id
    · subst hid
      exact hfix
    · rcases hinv.settles id with hsettled | ⟨h', hmem, hh', hcurrent⟩
      · exact .inl (hsettled.congr hinv.sound hsound rfl (hother id hid))
      · refine .inr ⟨h', mem_eraseIdx_of_ne hplace hmem ?_, hh', hcurrent⟩
        rintro rfl
        exact hid hh'.symm

/-- A handler that takes its device out of the map. -/
theorem Inv.remove {place : Nat} {h : CallbackHandler} {r : Checked Callbacks} (hinv : s.Inv name)
    (hplace : s.handlers[place]? = some h) (hpresent : s.map.devices.get h.id ≠ none)
    (hfix : (Current s.store h ∧ ∀ d, s.store h.id = some d → d.service.name ≠ name) ∨
      ∃ h' ∈ s.handlers.eraseIdx place, h'.id = h.id ∧ Current s.store h')
    (hstep : s.finish place (s.map.removedeviceByid h.id) = r) :
    ∃ s', r = .ok s' ∧ s'.Inv name := by
  obtain ⟨a, map', ha, hremove, hcall⟩ := hinv.sound.removedeviceByid_ok hpresent
  rw [finish, hcall] at hstep
  refine ⟨_, hstep.symm, ?_⟩
  have hcopy := hinv.sound.live.copy_removeLocked ha hremove
  have hsound := hinv.sound.removeLocked ⟨h.id, ha⟩ hremove
  have hgone : map'.copy h.id = none := by rw [hcopy, if_pos rfl]
  refine hinv.updated hplace hsound (hinv.registered.removeLocked hremove) ?_ ?_ ?_
  · intro c hc
    rw [hgone] at hc
    cases hc
  · intro id hid
    rw [hcopy, if_neg hid]
  · refine hfix.imp_left ?_
    rintro ⟨-, hservice⟩
    have hnone : map'.devices.get h.id = none := hsound.live.copy_eq_none_iff.mp hgone
    unfold Settled
    dsimp only
    split
    · exact hnone
    · next d hd =>
      rw [if_neg (hservice d hd)]
      exact hnone

/-- What a replacement leaves under the id is the new version, if the comparison was true. -/
theorem Replaced.sameVersion {old : Option (DeviceInfo × Text)} {d : MetaDevice}
    {c : DeviceInfo × Text} (h : Devmap.Replaced old d.device d.profile c)
    (hservice : ∀ info, old = some (info, d.profile.name) →
      ProtocolsNamed info.protocols ∧ info.service.map DeviceService.name = some d.service.name)
    (htrue : ∀ info, old = some (info, d.profile.name) → info.name = d.device.name →
      edgexDeviceAutoeventsEqual info.autos d.device.autos = true →
      edgexProtocolsEqual info.protocols d.device.protocols = true →
      info.autos.Perm d.device.autos) : SameVersion c d := by
  cases h with
  | added =>
    exact {
      fields := rfl
      protocols := sameProtocols_edgexProtocolsDup d.protocolsNamed
      autos := .refl _
      service := by
        show d.device.service.map DeviceService.name = _
        rw [d.service_eq]
        rfl
      profile := rfl }
  | updated hold hname hid hautos hprotocols =>
    obtain ⟨hnamed, hservice⟩ := hservice _ hold
    have hperm := htrue _ hold hname hautos hprotocols
    exact {
      fields := by simp only [Devmap.updatedInfo, hname, hid]
      protocols := sameProtocols_of_edgexProtocolsEqual hnamed d.protocolsNamed hprotocols
      autos := hperm
      service := hservice
      profile := rfl }

/-- A handler that puts its device into the map. -/
theorem Inv.replace {place : Nat} {id : Text} {newdev : MetaDevice} {r : Checked Callbacks}
    (hinv : s.Inv name) (hplace : s.handlers[place]? = some (.fetched id newdev))
    (hservice : newdev.service.name = name)
    (hfix : Current s.store (.fetched id newdev) ∧ ComparesTruly s.map (.fetched id newdev) ∨
      ∃ h' ∈ s.handlers.eraseIdx place, h'.id = id ∧ Current s.store h')
    (hstep : s.finish place (s.map.replaceDevice newdev.device) = r) :
    ∃ s', r = .ok s' ∧ s'.Inv name := by
  obtain rfl := hinv.fetched (List.mem_of_getElem? hplace)
  obtain ⟨map', hcall⟩ := hinv.sound.replaceDevice_ok hinv.registered newdev.profile_eq
    newdev.opsNamed newdev.service_eq
  rw [finish, hcall] at hstep
  refine ⟨_, hstep.symm, ?_⟩
  have hsound := hinv.sound.replaceDevice hcall
  have hregistered := hinv.registered.replaceDevice (fun hsame hops => hsame.opsNamed hops)
    newdev.profile_eq newdev.opsNamed hcall
  obtain ⟨hother, c, hc, hreplaced⟩ := hinv.sound.live.copy_replaceDevice hinv.registered
    newdev.profile_eq hcall
  have hheld : ProtocolsNamed c.1.protocols ∧ c.1.service.map DeviceService.name = some name := by
    -- an update in place keeps the service that the copy had
    cases hreplaced with
    | added =>
      refine ⟨newdev.protocolsNamed.dup, ?_⟩
      show newdev.device.service.map DeviceService.name = _
      rw [newdev.service_eq, ← hservice]
      rfl
    | updated hold _ _ _ _ =>
      have hold := hinv.held hold
      exact hold
  refine hinv.updated hplace hsound hregistered ?_ hother ?_
  · intro c' hc'
    obtain rfl : c = c' := Option.some.inj (hc.symm.trans hc')
    exact hheld
  · refine hfix.imp_left ?_
    rintro ⟨hcurrent, htrue⟩
    have hstore : s.store newdev.device.id = some newdev := hcurrent
    unfold Settled
    dsimp only [CallbackHandler.id]
    rw [hstore]
    dsimp only
    rw [if_pos hservice]
    refine ⟨c, hc, Replaced.sameVersion hreplaced ?_ ?_⟩
    · intro info hold
      rw [hservice]
      exact hinv.held hold
    · intro info hold hname hautos hprotocols
      exact htrue _ hold hname rfl hautos hprotocols

/-- A step that meets the condition does not fault, and keeps the invariant. -/
theorem Inv.step {a : CallbackAction} {r : Checked Callbacks} (h : s.Inv name)
    (hkeeps : s.Keeps name a) (hstep : s.step name a = some r) : ∃ s', r = .ok s' ∧ s'.Inv name := by
  cases a with
  | create d =>
    simp only [Callbacks.step] at hstep
    split at hstep
    · cases hstep
    · cases hstep
      refine ⟨_, rfl, h.change (fun d' hd' => by cases hd'; rfl) ?_⟩
      simp [Current]
  | update d =>
    simp only [Callbacks.step] at hstep
    split at hstep
    · cases hstep
    · cases hstep
      refine ⟨_, rfl, h.change (fun d' hd' => by cases hd'; rfl) ?_⟩
      simp [Current]
  | delete id =>
    simp only [Callbacks.step] at hstep
    split at hstep
    · cases hstep
    · cases hstep
      refine ⟨_, rfl, h.change (fun d' hd' => by cases hd') ?_⟩
      simp [Current]
  | handle place =>
    simp only [Callbacks.step] at hstep
    split at hstep
    · cases hstep
    · next handler hplace =>
      have hhandle : s.handle name place handler = r := Option.some.inj hstep
      cases handler with
      | received method id =>
        cases method with
        | delete =>
          obtain ⟨hpresent, hfix⟩ := hkeeps _ hplace trivial
          refine h.remove hplace (hpresent trivial) (hfix.imp_left ?_) hhandle
          rintro ⟨hcurrent, -⟩
          refine ⟨hcurrent, fun d hd => ?_⟩
          have hnone : s.store id = none := hcurrent
          rw [CallbackHandler.id, hnone] at hd
          cases hd
        | post => exact h.fetch hplace (by simp) hhandle
        | put => exact h.fetch hplace (by simp) hhandle
      | fetched id newdev =>
        obtain ⟨hpresent, hfix⟩ := hkeeps _ hplace trivial
        rw [Callbacks.handle] at hhandle
        -- a device that went to another service is removed, any other one is put in
        split at hhandle
        · next hservice =>
          refine h.remove hplace (hpresent hservice) (hfix.imp_left ?_) hhandle
          rintro ⟨hcurrent, -⟩
          refine ⟨hcurrent, fun d hd => ?_⟩
          have hstore : s.store id = some newdev := hcurrent
          rw [CallbackHandler.id, hstore, Option.some_inj] at hd
          exact hd ▸ hservice
        · next hservice => exact h.replace hplace (not_not.mp hservice) hfix hhandle

end Steps

/-- In a run whose steps all meet the condition no step faults, and when every callback has been
handled the map agrees with metadata about every device. -/
theorem callbacks_converge {name : Text} {as : List CallbackAction} {r : Checked Callbacks}
    (hguard : Machine.Guarded (Machine.checked (step name)) (Machine.OnOk (Keeps name))
      (.ok .init) as)
    (hrun : Machine.run (Machine.checked (step name)) (.ok .init) as = some r) :
    ∃ s, r = .ok s ∧ (s.handlers = [] → ∀ id, s.Settled name id) := by
  have hstep : ∀ {s : Callbacks} {a : CallbackAction} {r : Checked Callbacks}, s.Inv name →
      s.Keeps name a → s.step name a = some r → ∃ s', r = .ok s' ∧ s'.Inv name :=
    fun h hkeeps hstep => h.step hkeeps hstep
  obtain ⟨s, hs, hinv⟩ := hguard.checked_total hstep hrun inv_init
  refine ⟨s, hs, fun hnil id => ?_⟩
  refine (hinv.settles id).resolve_right ?_
  rintro ⟨h, hmem, -⟩
  rw [hnil] at hmem
  cases hmem

/-! ### A plug in metadata -/

/-- A plug, locked or not. -/
def metaPlug (adminState : AdminState) : MetaDevice where
  device := { Devmap.plug (lit "1") (lit "Plug") with adminState := adminState }
  profile := plugProfile
  service :=
    { addressable := none, adminState := .unlocked, created := 0, description := [], id := []
      labels := [], lastConnected := 0, lastReported := 0, modified := 0, name := lit "zigbee"
      operatingState := .enabled, origin := 0 }
  profile_eq := rfl
  service_eq := rfl
  opsNamed := by
    unfold DeviceProfile.OpsNamed
    decide
  protocolsNamed := protocolsNamed_nil

/-- The plug is read before it is locked, and put into the map after the lock was. -/
def lockActions : List CallbackAction :=
  [.create (metaPlug .unlocked), .handle 0, .update (metaPlug .locked), .handle 1, .handle 1,
    .handle 0]

/-- The callbacks are handled, and the map holds the plug as it was. -/
theorem lockActions_diverge :
    ∃ s, Machine.run (Machine.checked (step (lit "zigbee"))) (.ok .init) lockActions =
        some (.ok s) ∧
      s.handlers = [] ∧ ¬ ∀ id, s.Settled (lit "zigbee") id := by
  have hlost : ((Machine.run (Machine.checked (step (lit "zigbee"))) (.ok .init)
      lockActions).bind Except.toOption).map (fun s => (s.handlers.length,
        (s.store (lit "1")).map (fun d => (d.device.adminState, d.service.name)),
        (s.map.copy (lit "1")).map fun c => c.1.adminState)) =
      some (0, some (.locked, lit "zigbee"), some .unlocked) := by
    decide +kernel
  obtain ⟨s, hs, hstate⟩ := Option.map_eq_some_iff.mp hlost
  obtain ⟨r, hr, hok⟩ := Option.bind_eq_some_iff.mp hs
  simp only [Prod.mk.injEq] at hstate
  obtain ⟨hhandlers, hstore, hcopy⟩ := hstate
  obtain ⟨d, hd, hdevice⟩ := Option.map_eq_some_iff.mp hstore
  rw [Prod.mk.injEq] at hdevice
  cases r with
  | error e => cases hok
  | ok t =>
    cases hok
    refine ⟨s, hr, List.length_eq_zero_iff.mp hhandlers, fun hall => ?_⟩
    have hsettled := hall (lit "1")
    unfold Settled at hsettled
    rw [hd] at hsettled
    dsimp only at hsettled
    rw [if_pos hdevice.2] at hsettled
    obtain ⟨c, hc, hsame⟩ := hsettled
    rw [hc] at hcopy
    have hfields := congrArg DeviceInfo.adminState hsame.fields
    have hstate : c.1.adminState = d.device.adminState := hfields
    rw [hdevice.1] at hstate
    rw [Option.map_some, hstate] at hcopy
    cases hcopy

/-- A single callback. -/
def plugActions : List CallbackAction := [.create (metaPlug .unlocked), .handle 0, .handle 0]

theorem plugActions_converge :
    ∃ r s, Machine.run (Machine.checked (step (lit "zigbee"))) (.ok .init) plugActions = some r ∧
      r = .ok s ∧ (s.handlers = [] → ∀ id, s.Settled (lit "zigbee") id) := by
  have hguard : Machine.Guarded (Machine.checked (step (lit "zigbee")))
      (Machine.OnOk (Keeps (lit "zigbee"))) (.ok .init) plugActions := by
    refine ⟨trivial, fun r₁ h₁ => ?_⟩
    obtain rfl : .ok (Callbacks.init.change (lit "1") (some (metaPlug .unlocked)) .post) = r₁ :=
      Option.some.inj h₁
    refine ⟨?_, fun r₂ h₂ => ?_⟩
    · intro h hplace hupdates
      cases hplace
      cases hupdates
    obtain rfl : .ok { Callbacks.init.change (lit "1") (some (metaPlug .unlocked)) .post with
        handlers := [.fetched (lit "1") (metaPlug .unlocked)] } = r₂ := Option.some.inj h₂
    refine ⟨?_, fun _ _ => trivial⟩
    intro h hplace _
    cases hplace
    refine ⟨fun hremoves => absurd rfl hremoves, .inl ⟨rfl, ?_⟩⟩
    intro c hc
    cases hc
  have hrun : (Machine.run (Machine.checked (step (lit "zigbee"))) (.ok .init)
      plugActions).isSome := by
    decide +kernel
  obtain ⟨r, hr⟩ := Option.isSome_iff_exists.mp hrun
  obtain ⟨s, hs⟩ := callbacks_converge hguard hr
  exact ⟨r, s, hr, hs⟩

end Callbacks

end Zigbee
