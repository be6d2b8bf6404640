-- SUMMARY: A pushed event between the reading of its values and its post, beside the calls that change the device map.
import ZigbeeService.Devices.Index
import ZigbeeService.Message.Origin

/-!
# Pushed events and the device map

The PushEvent thread resolves the device and the command of a message twice: in a copy of the device,
to read the values at the types of the command, and again in the map, to post them. The lock of the
map is not held in between.
-/

namespace Zigbee

open CLib

namespace Devmap

-- ---------------------------------------------------------------------------
-- The functions
-- ---------------------------------------------------------------------------

/-- `edgex_device_get_device_byname`, as far as the reader looks at it: the profile of the copy. -/
def getDeviceByname (map : Devmap) (name : Text) : Checked (Option DeviceProfile) := do
  match ← map.findByname name with
  | none => return none
  | some dev =>
    let d ← map.objects.read dev
    let prof ← map.profileObjects.read d.profile
    return some (edgexDeviceprofileDup prof)

/-- `commandinfo->reqs[i].resname` and `commandinfo->pvals[i]->type`. -/
def pushedRequest (req : CmdRequest) : CommandRequest :=
  { req.toCommandRequest with type := req.pval.type }

/-- `user_push_event_read`, with the devices of the map. -/
def pushEventRead (ft : FloatText) (map : Devmap) (input : Text) :
    Checked (Option UserPushEvent) := do
  let ev ← takeEvent input
  match ← map.getDeviceByname ev.name with
  | none => userPushEventRead ft ⟨fun _ => none⟩ input
  | some profile =>
    let (commandinfo, _) ← edgexDeviceprofileFindcommand ev.commandDevice profile true
    let requests := commandinfo.map fun info => info.reqs.map pushedRequest
    userPushEventRead ft ⟨fun _ => some ⟨fun _ => requests⟩⟩ input

/-- The command that `edgex_device_post_readings` finds. -/
def postCommand (map : Devmap) (devname resname : Text) :
    Checked (Option CmdInfo × Devmap) := do
  match ← map.findByname devname with
  | none => return (none, map)
  | some dev =>
    let d ← map.objects.read dev
    let prof ← map.profileObjects.read d.profile
    let (command, prof) ← edgexDeviceprofileFindcommand resname prof true
    return (command, { map with profileObjects := map.profileObjects.write d.profile prof })

/-- The map, and the event that the PushEvent thread has read and not posted yet. -/
structure PushState where
  map : Devmap
  parsed : Option UserPushEvent

def PushState.init : PushState := ⟨alloc, none⟩

inductive PushAction where
  /-- A callback thread adds, replaces, updates or removes devices. -/
  | call (c : Call)
  /-- The PushEvent thread takes a message from its queue and reads it. -/
  | read (input : Text)
  /-- It posts the event that it has read. -/
  | post

/-- A step. It is not enabled where the call would fault. -/
def pushStep (ft : FloatText) (s : PushState) : PushAction → Option PushState
  | .call c => (s.map.call c).toOption.map fun map => { s with map := map }
  | .read input =>
    match s.parsed with
    | some _ => none
    | none => (s.map.pushEventRead ft input).toOption.map fun event => { s with parsed := event }
  | .post =>
    match s.parsed with
    | none => none
    | some e => (s.map.postCommand e.deviceName e.resourceName).toOption.map fun r => ⟨r.2, none⟩

-- ---------------------------------------------------------------------------
-- Specification
-- ---------------------------------------------------------------------------

/-- `edgex_data_process_event` does not read beyond the values, and each value has the type that the
command takes it for. -/
structure PostedAsParsed (command : CmdInfo) (values : List CommandResult) : Prop where
  accesses : ∀ (ft : FloatText) (L : Type) (ld : LongDouble L) (cb : Libcbor) timenow devname
    doTransforms,
    (edgexDataProcessEvent ft ld cb timenow devname command values doTransforms).Accesses
  types : ∀ (i : Nat) req, command.reqs[i]? = some req →
    ∃ value, values[i]? = some value ∧ value.type = req.pval.type

/-- A post, if it came now, would be one of the event as it was parsed. -/
def PostsAsParsed (s : PushState) : Prop :=
  ∀ e, s.parsed = some e → ∀ command map',
    s.map.postCommand e.deviceName e.resourceName = .ok (some command, map') →
      PostedAsParsed command e.values

/-! ### The condition -/

/-- The types of the values of a command. -/
def layout (command : CmdInfo) : List PropertyType := command.reqs.map fun req => req.pval.type

/-- The event has the values that the GET command of its name in the profile asks for. -/
def FitsEvent (e : UserPushEvent) (prof : DeviceProfile) : Prop :=
  ∀ command table,
    edgexDeviceprofileFindcommand e.resourceName (edgexDeviceprofileDup prof) true =
        .ok (some command, table) →
      layout command <+: e.values.map fun value : CommandResult => value.type

/-- The profile that a device has after it is added: the one registered under its name, or its
own. -/
def profileOf (map : Devmap) (d : Device) : Option DeviceProfile :=
  d.profile.bind fun p =>
    match map.profiles.get p.name with
    | some pp => map.profileObjects.find? pp
    | none => some p

/-- A device that is added under the name of the event, or in the place of the one that the name leads
to, fits the event. -/
def AddFits (e : UserPushEvent) (map : Devmap) (d : Device) : Prop :=
  (d.name = e.deviceName ∨ ∃ a old, map.nameToId.get e.deviceName = some a ∧
    map.objects.find? a = some old ∧ old.id = d.id) →
  ∀ prof, map.profileOf d = some prof → FitsEvent e prof

/-- Each device that a call adds fits the event. -/
def CallFits (e : UserPushEvent) (map : Devmap) : Call → Prop
  | .populate devs =>
    Machine.Guarded (fun map d => (map.populateDevice d).toOption)
      (fun map d => map.nameToId.get d.name = none → map.AddFits e d) map devs
  | .replace dev => ∀ m, map.replaceOld dev = .ok (true, m) → m.AddFits e dev
  | _ => True

/-- Between the reading of an event and its post, no device is added that does not fit it. -/
def KeepsLayout (s : PushState) : PushAction → Prop
  | .call c => ∀ e, s.parsed = some e → CallFits e s.map c
  | _ => True

-- ---------------------------------------------------------------------------
-- The table of commands
-- ---------------------------------------------------------------------------

/-- The table of a profile, when it is there, is the one that its copy would get. -/
def Tabled (prof : DeviceProfile) : Prop :=
  prof.cmdinfo = [] ∨ ensureCmdInfo (edgexDeviceprofileDup prof) = .ok prof

/-- Looking at the table of a profile, or at that of its copy, is the same. -/
theorem Tabled.ensureCmdInfo_dup {p q : DeviceProfile} (h : Tabled p)
    (hensure : ensureCmdInfo p = .ok q) : ensureCmdInfo (edgexDeviceprofileDup p) = .ok q := by
  rcases h with hnil | hdup
  · have hself : edgexDeviceprofileDup p = p := by
      rw [edgexDeviceprofileDup, ← hnil]
    rw [hself, hensure]
  · by_cases hnil : p.cmdinfo = []
    · have hself : edgexDeviceprofileDup p = p := by
        rw [edgexDeviceprofileDup, ← hnil]
      rw [hself, hensure]
    · rw [ensureCmdInfo, if_neg hnil] at hensure
      cases hensure
      exact hdup

theorem Tabled.ensureCmdInfo {p q : DeviceProfile} (h : Tabled p)
    (hensure : Zigbee.ensureCmdInfo p = .ok q) : Tabled q := by
  right
  rw [(ensureCmdInfo_sameProfile hensure).dup_eq]
  exact h.ensureCmdInfo_dup hensure

theorem Tabled.findcommand {name : Text} {p q : DeviceProfile} {forGet : Bool}
    {info : Option CmdInfo} (h : Tabled p)
    (hfind : edgexDeviceprofileFindcommand name p forGet = .ok (info, q)) :
    Tabled q ∧ edgexDeviceprofileFindcommand name (edgexDeviceprofileDup p) forGet = .ok (info, q) := by
  obtain ⟨r, hr, hfind⟩ := Checked.bind_eq_ok.mp hfind
  cases hfind
  refine ⟨h.ensureCmdInfo hr, ?_⟩
  rw [edgexDeviceprofileFindcommand, h.ensureCmdInfo_dup hr]
  rfl

theorem Tabled.autoeventStart {autos : List AutoEvent} {p q : DeviceProfile} (h : Tabled p)
    (hstart : edgexDeviceAutoeventStart p autos = .ok q) : Tabled q := by
  induction autos generalizing p with
  | nil =>
    cases hstart
    exact h
  | cons ae autos ih =>
    obtain ⟨⟨info, r⟩, hr, hstart⟩ := Checked.bind_eq_ok.mp hstart
    exact ih (h.findcommand hr).1 hstart

theorem tabled_dup (p : DeviceProfile) : Tabled (edgexDeviceprofileDup p) := .inl rfl

theorem FitsEvent.of_dup {e : UserPushEvent} {p q : DeviceProfile} (h : FitsEvent e p)
    (hdup : edgexDeviceprofileDup q = edgexDeviceprofileDup p) : FitsEvent e q := by
  unfold FitsEvent
  rw [hdup]
  exact h

-- ---------------------------------------------------------------------------
-- Where a name leads
-- ---------------------------------------------------------------------------

/-- The name leads to a device with this profile. -/
def Leads (map : Devmap) (n : Text) (prof : DeviceProfile) : Prop :=
  ∃ a d, map.findByname n = .ok (some a) ∧ map.objects.find? a = some d ∧
    map.profileObjects.find? d.profile = some prof

/-- No address in the maps is ahead of the objects, and every device has a profile. -/
structure Allocated (map : Devmap) : Prop where
  names : ∀ {n a}, map.nameToId.get n = some a → a < map.objects.size
  devices : ∀ {id a}, map.devices.get id = some a → a < map.objects.size
  profiles : ∀ {a d}, map.objects.find? a = some d →
    ∃ prof, map.profileObjects.find? d.profile = some prof
  tabled : ∀ {p prof}, map.profileObjects.find? p = some prof → Tabled prof

theorem allocated_alloc : Allocated alloc where
  names h := nomatch h
  devices h := nomatch h
  profiles h := nomatch h
  tabled h := nomatch h

/-- Entries may have gone from the maps, and objects; those that are left have kept their ids and
their profiles. -/
structure Shrinks (map map' : Devmap) : Prop where
  names : ∀ {n a}, map'.nameToId.get n = some a → map.nameToId.get n = some a
  devices : ∀ {id a}, map'.devices.get id = some a → map.devices.get id = some a
  objects : ∀ {a d'}, map'.objects.find? a = some d' →
    ∃ d, map.objects.find? a = some d ∧ d.id = d'.id ∧ d.profile = d'.profile
  size : map'.objects.size = map.objects.size
  profileObjects : map'.profileObjects = map.profileObjects

section Changes

variable {map map' : Devmap}

theorem Shrinks.refl (map : Devmap) : Shrinks map map where
  names h := h
  devices h := h
  objects h := ⟨_, h, rfl, rfl⟩
  size := rfl
  profileObjects := rfl

theorem Shrinks.trans {map'' : Devmap} (h : Shrinks map map') (h' : Shrinks map' map'') :
    Shrinks map map'' where
  names hn := h.names (h'.names hn)
  devices hid := h.devices (h'.devices hid)
  objects hd := by
    obtain ⟨d, hd, hid, hprofile⟩ := h'.objects hd
    obtain ⟨e, he, hid', hprofile'⟩ := h.objects hd
    exact ⟨e, he, hid'.trans hid, hprofile'.trans hprofile⟩
  size := h'.size.trans h.size
  profileObjects := h'.profileObjects.trans h.profileObjects

theorem Shrinks.allocated (h : Shrinks map map') (halloc : map.Allocated) : map'.Allocated where
  names hn := by
    rw [h.size]
    exact halloc.names (h.names hn)
  devices hid := by
    rw [h.size]
    exact halloc.devices (h.devices hid)
  profiles hd := by
    obtain ⟨d, hd, -, hprofile⟩ := h.objects hd
    rw [h.profileObjects, ← hprofile]
    exact halloc.profiles hd
  tabled hp := by
    rw [h.profileObjects] at hp
    exact halloc.tabled hp

/-- A name leads nowhere new. -/
theorem Shrinks.leads {n : Text} {prof : DeviceProfile} (h : Shrinks map map')
    (hleads : map'.Leads n prof) : map.Leads n prof := by
  obtain ⟨a, d', hfind, hd', hprof⟩ := hleads
  obtain ⟨x, dx', hn, hx, hdev⟩ := findByname_eq_some.mp hfind
  obtain ⟨d, hd, -, hprofile⟩ := h.objects hd'
  obtain ⟨dx, hdx, hid, -⟩ := h.objects hx
  rw [h.profileObjects, ← hprofile] at hprof
  refine ⟨a, d, findByname_eq_some.mpr ⟨x, dx, h.names hn, hdx, ?_⟩, hd, hprof⟩
  rw [hid]
  exact h.devices hdev

theorem release_shrinks {a : ObjAddr} (h : map.release a = .ok map') : Shrinks map map' := by
  obtain ⟨d, hd, ⟨-, rfl⟩ | ⟨-, rfl⟩⟩ := release_eq_ok h
  · exact { Shrinks.refl map with
      objects := by
        intro b e he
        rw [Store.find?_free] at he
        split at he
        · cases he
        · exact ⟨e, he, rfl, rfl⟩
      size := Store.size_free }
  · exact { Shrinks.refl map with
      objects := by
        intro b e he
        rw [Store.find?_write hd] at he
        split at he
        · next heq =>
          cases he
          exact ⟨d, heq ▸ hd, rfl, rfl⟩
        · exact ⟨e, he, rfl, rfl⟩
      size := Store.size_write }

theorem removeLocked_shrinks {a : ObjAddr} (h : map.removeLocked a = .ok map') :
    Shrinks map map' := by
  obtain ⟨d, -, hrelease⟩ := removeLocked_eq_ok h
  refine Shrinks.trans ?_ (release_shrinks hrelease)
  exact { Shrinks.refl map with
    names := by
      intro n b hn
      rw [HashMap.get_remove] at hn
      split at hn
      · cases hn
      · exact hn
    devices := by
      intro id b hid
      rw [HashMap.get_remove] at hid
      split at hid
      · cases hid
      · exact hid }

theorem updateInPlace_shrinks {a : ObjAddr} {src : Device} {done : Bool}
    (h : map.updateInPlace a src = .ok (done, map')) : Shrinks map map' := by
  obtain ⟨d, hd, ⟨-, rfl⟩ | ⟨-, -, rfl⟩⟩ := updateInPlace_eq_ok h
  · exact .refl _
  · exact { Shrinks.refl map with
      objects := by
        intro b e he
        rw [Store.find?_write hd] at he
        split at he
        · next heq =>
          cases he
          exact ⟨d, heq ▸ hd, rfl, rfl⟩
        · exact ⟨e, he, rfl, rfl⟩
      size := Store.size_write }

theorem replaceOld_shrinks {dev : Device} {add : Bool}
    (h : map.replaceOld dev = .ok (add, map')) : Shrinks map map' := by
  rcases replaceOld_eq_ok h with ⟨-, -, rfl⟩ | ⟨a, -, ⟨-, hupdate⟩ | ⟨-, -, hremove⟩⟩
  · exact .refl _
  · exact updateInPlace_shrinks hupdate
  · exact removeLocked_shrinks hremove

/-- What adding a device does to the profiles: the new device has the one that was expected, and only
its table may have been built. -/
theorem addLocked_profile {d : Device} (h : map.addLocked d = .ok map') :
    ∃ pp prof prof', map.Added d pp map' ∧ map.profileOf d = some prof ∧
      edgexDeviceprofileDup prof' = edgexDeviceprofileDup prof ∧
      ((∀ p q, map.profileObjects.find? p = some q → Tabled q) → Tabled prof') ∧
      ∀ p, map'.profileObjects.find? p =
        if p = pp then some prof' else map.profileObjects.find? p := by
  obtain ⟨pp, hadded⟩ := addLocked_eq_ok h
  obtain ⟨p', prof'', hd, hreg, -⟩ := hadded.profile
  obtain ⟨p, q, m, prof, prof', hp, hshare, hprof, hstart, rfl⟩ := addLocked_parts h
  obtain rfl : p' = p := Option.some.inj (hd.symm.trans hp)
  have hdup := (autoeventStart_sameProfile hstart).dup_eq
  have hwrite (r : ObjAddr) := Store.find?_write (b := r) (v := prof') hprof
  simp only [shareProfile, edgexDeviceprofileDup] at hshare
  cases hget : map.profiles.get p'.name with
  | some pp' =>
    simp only [hget] at hshare
    cases hshare
    cases hget.symm.trans hreg
    refine ⟨pp, prof, prof', hadded, ?_, hdup, ?_, hwrite⟩
    · simp only [profileOf, hp, Option.bind_some, hget]
      exact hprof
    · intro htabled
      exact (htabled pp prof hprof).autoeventStart hstart
  | none =>
    simp only [hget] at hshare
    cases hshare
    simp only [HashMap.get_set, if_true] at hreg
    cases hreg
    simp only [Store.find?_alloc, if_true] at hprof hwrite
    cases hprof
    refine ⟨_, p', prof', hadded, ?_, hdup, ?_, ?_⟩
    · simp only [profileOf, hp, Option.bind_some, hget]
    · intro _
      exact (tabled_dup p').autoeventStart hstart
    · intro r
      rw [hwrite]
      split
      · rfl
      · rfl

theorem Allocated.addLocked {d : Device} (h : map.Allocated) (hadd : map.addLocked d = .ok map') :
    map'.Allocated := by
  obtain ⟨pp, prof, prof', hadded, -, -, htabled, hprofiles⟩ := addLocked_profile hadd
  exact {
    names := by
      intro n a hn
      rw [hadded.objects, Store.size_alloc]
      rw [hadded.nameToId, HashMap.get_set] at hn
      split at hn
      · cases hn
        exact Nat.lt_succ_self _
      · exact Nat.lt_succ_of_lt (h.names hn)
    devices := by
      intro id a hid
      rw [hadded.objects, Store.size_alloc]
      rw [hadded.devices, HashMap.get_set] at hid
      split at hid
      · cases hid
        exact Nat.lt_succ_self _
      · exact Nat.lt_succ_of_lt (h.devices hid)
    profiles := by
      intro a e he
      rw [hadded.objects, Store.find?_alloc] at he
      split at he
      · cases he
        exact ⟨prof', by rw [hprofiles, if_pos rfl]⟩
      · obtain ⟨q, hq⟩ := h.profiles he
        obtain ⟨q', hq', -⟩ := hadded.kept hq
        exact ⟨q', hq'⟩
    tabled := by
      intro p q hq
      rw [hprofiles] at hq
      split at hq
      · cases hq
        exact htabled fun _ _ => h.tabled
      · exact h.tabled hq }

/-- Where a name leads after a device is added: as before, or to the new device. -/
theorem leads_addLocked {d : Device} {n : Text} {q : DeviceProfile} (h : map.Allocated)
    (hadd : map.addLocked d = .ok map') (hleads : map'.Leads n q) :
    (∃ prof, map.Leads n prof ∧ edgexDeviceprofileDup q = edgexDeviceprofileDup prof) ∨
      (d.name = n ∨ ∃ a old, map.nameToId.get n = some a ∧ map.objects.find? a = some old ∧
        old.id = d.id) ∧
      ∃ prof, map.profileOf d = some prof ∧
        edgexDeviceprofileDup q = edgexDeviceprofileDup prof := by
  obtain ⟨pp, prof, prof', hadded, hof, hdup, -, hprofiles⟩ := addLocked_profile hadd
  obtain ⟨a, e, hfind, he, hq⟩ := hleads
  obtain ⟨x, dx, hn, hx, hdev⟩ := findByname_eq_some.mp hfind
  have hold {b : ObjAddr} (hb : b < map.objects.size) :
      map'.objects.find? b = map.objects.find? b := by
    rw [hadded.objects, Store.find?_alloc, if_neg (Nat.ne_of_lt hb)]
  have hnew : map'.objects.find? map.objects.size =
      some { copiedInfo d with profile := pp, refs := 1 } := by
    rw [hadded.objects, Store.find?_alloc, if_pos rfl]
  -- a name that leads to the new device leads to its profile
  have hgot (ha : a = map.objects.size) : ∃ prof, map.profileOf d = some prof ∧
      edgexDeviceprofileDup q = edgexDeviceprofileDup prof := by
    rw [ha, hnew] at he
    cases he
    rw [hprofiles, if_pos rfl] at hq
    cases hq
    exact ⟨prof, hof, hdup⟩
  rw [hadded.nameToId, HashMap.get_set] at hn
  rw [hadded.devices, HashMap.get_set] at hdev
  split at hn
  · next hname =>
    cases hn
    rw [hnew] at hx
    cases hx
    have hhere : some map.objects.size = some a := (if_pos rfl).symm.trans hdev
    exact .inr ⟨.inl hname.symm, hgot (Option.some.inj hhere).symm⟩
  · rw [hold (h.names hn)] at hx
    split at hdev
    · next hid => exact .inr ⟨.inr ⟨x, dx, hn, hx, hid⟩, hgot (Option.some.inj hdev).symm⟩
    · rw [hold (h.devices hdev)] at he
      obtain ⟨r, hr⟩ := h.profiles he
      refine .inl ⟨r, ⟨a, e, findByname_eq_some.mpr ⟨x, dx, hn, hx, hdev⟩, he, hr⟩, ?_⟩
      obtain ⟨r', hr', hsame⟩ := hadded.kept hr
      cases hq.symm.trans hr'
      exact hsame.dup_eq

end Changes

-- ---------------------------------------------------------------------------
-- The invariant
-- ---------------------------------------------------------------------------

/-- An event that was read fits the profile that its device leads to. -/
structure PushState.Inv (s : PushState) : Prop where
  allocated : s.map.Allocated
  fits : ∀ e, s.parsed = some e → ∀ prof, s.map.Leads e.deviceName prof → FitsEvent e prof

theorem PushState.inv_init : PushState.init.Inv where
  allocated := allocated_alloc
  fits _ h := nomatch h

section Steps

variable {map map' : Devmap} {parsed : Option UserPushEvent}

theorem PushState.Inv.shrinks (h : PushState.Inv ⟨map, parsed⟩) (hshrinks : Shrinks map map') :
    PushState.Inv ⟨map', parsed⟩ where
  allocated := hshrinks.allocated h.allocated
  fits e he prof hleads := h.fits e he prof (hshrinks.leads hleads)

theorem PushState.Inv.addLocked {d : Device} (h : PushState.Inv ⟨map, parsed⟩)
    (hfits : ∀ e, parsed = some e → map.AddFits e d) (hadd : map.addLocked d = .ok map') :
    PushState.Inv ⟨map', parsed⟩ where
  allocated := h.allocated.addLocked hadd
  fits := by
    intro e he q hleads
    rcases leads_addLocked h.allocated hadd hleads with ⟨prof, hold, hdup⟩ |
      ⟨hwhere, prof, hof, hdup⟩
    · exact (h.fits e he prof hold).of_dup hdup
    · exact (hfits e he hwhere prof hof).of_dup hdup

theorem PushState.Inv.populateDevices {devs : List Device} (h : PushState.Inv ⟨map, parsed⟩)
    (hfits : ∀ e, parsed = some e → map.CallFits e (.populate devs))
    (hpop : map.populateDevices devs = .ok map') : PushState.Inv ⟨map', parsed⟩ := by
  induction devs generalizing map with
  | nil =>
    cases hpop
    exact h
  | cons d devs ih =>
    obtain ⟨m, hm, hrest⟩ := Checked.bind_eq_ok.mp hpop
    refine ih ?_ (fun e he => (hfits e he).2 m (Checked.toOption_eq_some.mpr hm)) hrest
    unfold populateDevice at hm
    split at hm
    · cases hm
      exact h
    · next hnone =>
      exact h.addLocked (fun e he => (hfits e he).1 (by simpa using hnone)) hm

theorem PushState.Inv.call {c : Call} (h : PushState.Inv ⟨map, parsed⟩)
    (hfits : ∀ e, parsed = some e → map.CallFits e c) (hcall : map.call c = .ok map') :
    PushState.Inv ⟨map', parsed⟩ := by
  cases c with
  | populate devs => exact h.populateDevices hfits hcall
  | replace dev =>
    obtain ⟨⟨add, m⟩, hold, hcall⟩ := Checked.bind_eq_ok.mp hcall
    have hm := h.shrinks (replaceOld_shrinks hold)
    cases add with
    | false =>
      cases hcall
      exact hm
    | true => exact hm.addLocked (fun e he => hfits e he m hold) hcall
  | removeByname name =>
    rcases removedeviceByname_eq_ok hcall with rfl | ⟨a, -, hremove⟩
    · exact h
    · exact h.shrinks (removeLocked_shrinks hremove)
  | removeByid id =>
    obtain ⟨a, -, hremove⟩ := removedeviceByid_eq_ok hcall
    exact h.shrinks (removeLocked_shrinks hremove)

/-- The profile of a device that a name leads to. -/
theorem getDeviceByname_eq_some {n : Text} {profile : DeviceProfile}
    (h : map.getDeviceByname n = .ok (some profile)) :
    ∀ prof, map.Leads n prof → edgexDeviceprofileDup prof = profile := by
  rintro prof ⟨a, d, hfind, hd, hprof⟩
  rw [getDeviceByname, hfind, Checked.ok_bind] at h
  dsimp only at h
  rw [Store.read_eq_ok.mpr hd, Checked.ok_bind, Store.read_eq_ok.mpr hprof, Checked.ok_bind] at h
  cases h
  rfl

/-- A reading has the type of its request. -/
theorem readingsOf_types {ft : FloatText} {origin : UInt64} {reqs : List CommandRequest}
    {values : List Text} {readings : List CommandResult}
    (h : ReadingsOf ft origin reqs values readings) :
    readings.map (fun reading => reading.type) = reqs.map fun req => req.type := by
  induction reqs generalizing values readings with
  | nil =>
    cases readings with
    | nil => rfl
    | cons reading readings => exact h.elim
  | cons req reqs ih =>
    cases values with
    | nil => exact h.elim
    | cons value values =>
      cases readings with
      | nil => exact h.elim
      | cons reading readings =>
        obtain ⟨⟨prior, htype, -, hpop⟩, hrest⟩ := h
        have hframe := (populateValue_frame ft prior value).1
        rw [hpop] at hframe
        rw [List.map_cons, List.map_cons, ih hrest, ← htype]
        exact congrArg (· :: _) hframe

/-- The event is read at the layout of the command that the device has then. -/
theorem PushState.Inv.read {ft : FloatText} {input : Text} (h : PushState.Inv ⟨map, none⟩)
    (hread : map.pushEventRead ft input = .ok parsed) : PushState.Inv ⟨map, parsed⟩ where
  allocated := h.allocated
  fits := by
    rintro e rfl prof hleads command table hfind
    obtain ⟨ev, hev, hread⟩ := Checked.bind_eq_ok.mp hread
    obtain ⟨found, hfound, hread⟩ := Checked.bind_eq_ok.mp hread
    cases found with
    | none =>
      obtain ⟨_, dev, _, _, hdev, -⟩ := userPushEventRead_some hread
      cases hdev
    | some profile =>
      obtain ⟨⟨commandinfo, table'⟩, hcommand, hread⟩ := Checked.bind_eq_ok.mp hread
      obtain ⟨ev', dev, reqs, hev', hdev, hreqs, hname, hres, hof⟩ := userPushEventRead_some hread
      cases hev.symm.trans hev'
      cases hdev
      rw [hname] at hleads
      rw [hres, getDeviceByname_eq_some hfound prof hleads, hcommand] at hfind
      cases hfind
      cases hreqs
      rw [readingsOf_types hof, List.map_map]
      exact List.prefix_rfl

theorem PushState.Inv.post {n resname : Text} {r : Option CmdInfo}
    (h : PushState.Inv ⟨map, parsed⟩) (hpost : map.postCommand n resname = .ok (r, map')) :
    PushState.Inv ⟨map', none⟩ where
  fits _ he := nomatch he
  allocated := by
    obtain ⟨found, -, hpost⟩ := Checked.bind_eq_ok.mp hpost
    cases found with
    | none =>
      cases hpost
      exact h.allocated
    | some a =>
      obtain ⟨d, hd, hpost⟩ := Checked.bind_eq_ok.mp hpost
      obtain ⟨prof, hprof, hpost⟩ := Checked.bind_eq_ok.mp hpost
      obtain ⟨⟨command, prof'⟩, hfind, hpost⟩ := Checked.bind_eq_ok.mp hpost
      cases hpost
      have hprof := Store.read_eq_ok.mp hprof
      have hwrite (p : ObjAddr) := Store.find?_write (b := p) (v := prof') hprof
      exact { h.allocated with
        profiles := by
          intro b e he
          obtain ⟨q, hq⟩ := h.allocated.profiles he
          simp only [hwrite]
          split
          · exact ⟨_, rfl⟩
          · exact ⟨q, hq⟩
        tabled := by
          intro p q hq
          simp only [hwrite] at hq
          split at hq
          · cases hq
            exact ((h.allocated.tabled hprof).findcommand hfind).1
          · exact h.allocated.tabled hq }

theorem PushState.Inv.step {ft : FloatText} {s s' : PushState} {a : PushAction} (h : s.Inv)
    (hkeep : KeepsLayout s a) (hstep : pushStep ft s a = some s') : s'.Inv := by
  obtain ⟨map, parsed⟩ := s
  cases a with
  | call c =>
    obtain ⟨map', hcall, rfl⟩ := Option.map_eq_some_iff.mp hstep
    exact h.call hkeep (Checked.toOption_eq_some.mp hcall)
  | read input =>
    cases parsed with
    | some e => cases hstep
    | none =>
      obtain ⟨event, hread, rfl⟩ := Option.map_eq_some_iff.mp hstep
      exact h.read (Checked.toOption_eq_some.mp hread)
  | post =>
    cases parsed with
    | none => cases hstep
    | some e =>
      obtain ⟨⟨command, map'⟩, hpost, rfl⟩ := Option.map_eq_some_iff.mp hstep
      exact h.post (Checked.toOption_eq_some.mp hpost)

end Steps

-- ---------------------------------------------------------------------------
-- The post
-- ---------------------------------------------------------------------------

/-- Values that start with the layout of a command are read within bounds, and where they are. -/
theorem postedAsParsed {command : CmdInfo} {values : List CommandResult}
    (h : layout command <+: values.map fun value => value.type) :
    PostedAsParsed command values where
  accesses ft L ld cb timenow devname doTransforms :=
    edgexDataProcessEvent_accesses ft ld cb timenow devname doTransforms h
  types := by
    intro i req hreq
    obtain ⟨rest, hrest⟩ := h
    have htype : (values.map fun value => value.type)[i]? = some req.pval.type := by
      rw [← hrest, List.getElem?_append_left]
      · rw [layout, List.getElem?_map, hreq]
        rfl
      · rw [layout, List.length_map]
        exact (List.getElem?_eq_some_iff.mp hreq).1
    rw [List.getElem?_map] at htype
    exact Option.map_eq_some_iff.mp htype

theorem PushState.Inv.posts {s : PushState} (h : s.Inv) : PostsAsParsed s := by
  intro e he command map' hpost
  obtain ⟨found, hfound, hpost⟩ := Checked.bind_eq_ok.mp hpost
  cases found with
  | none => cases hpost
  | some a =>
    obtain ⟨d, hd, hpost⟩ := Checked.bind_eq_ok.mp hpost
    obtain ⟨prof, hprof, hpost⟩ := Checked.bind_eq_ok.mp hpost
    obtain ⟨⟨found, prof'⟩, hfind, hpost⟩ := Checked.bind_eq_ok.mp hpost
    cases hpost
    have hd := Store.read_eq_ok.mp hd
    have hprof := Store.read_eq_ok.mp hprof
    -- the table of the shared profile answers as that of a copy
    have hcopy := ((h.allocated.tabled hprof).findcommand hfind).2
    exact postedAsParsed (h.fits e he prof ⟨a, d, hfound, hd, hprof⟩ command prof' hcopy)

/-- As long as no device is added that does not fit an event which is read and not yet posted, events
are posted as they were parsed. -/
theorem posts_asParsed {ft : FloatText} {as : List PushAction} {s : PushState}
    (hguard : Machine.Guarded (pushStep ft) KeepsLayout .init as)
    (hrun : Machine.run (pushStep ft) .init as = some s) : PostsAsParsed s := by
  have hstep : ∀ {t a t'}, PushState.Inv t → KeepsLayout t a → pushStep ft t a = some t' →
      PushState.Inv t' := fun h hkeep hstep => h.step hkeep hstep
  exact (hguard.invariant hstep hrun PushState.inv_init).posts

/-! ### A plug -/

/-- Another profile with a command `Power`, which reads the switch as well. -/
def meterProfile : DeviceProfile :=
  { plugProfile with
    id := lit "p3"
    name := lit "Meter"
    deviceCommands := [⟨lit "Power", [],
      [⟨[], [], lit "Power", [], [], [], [], []⟩, ⟨[], [], lit "Switch", [], [], [], [], []⟩]⟩] }

/-- A plug is added, and pushes its power. -/
def plugPushes : List PushAction :=
  [.call (.replace (plug (lit "1") (lit "Plug"))), .read (lit "Plug#60#Power#1#value#30#")]

/-- Before the post, the plug is given the other profile. -/
def plugReplaced : List PushAction :=
  plugPushes ++
    [.call (.replace { plug (lit "1") (lit "Plug") with profile := some meterProfile })]

theorem plugPushes_asParsed :
    ∃ s, Machine.run (pushStep FloatText.empty) .init plugPushes = some s ∧ PostsAsParsed s := by
  have hguard : Machine.Guarded (pushStep FloatText.empty) KeepsLayout .init plugPushes :=
    ⟨fun _ h => (nomatch h), fun _ _ => ⟨trivial, fun _ _ => trivial⟩⟩
  have hsome : (Machine.run (pushStep FloatText.empty) .init plugPushes).isSome := by
    decide +kernel
  obtain ⟨s, hrun⟩ := Option.isSome_iff_exists.mp hsome
  exact ⟨s, hrun, posts_asParsed hguard hrun⟩

/-- The second value of the command is read beyond the one that the event has. -/
theorem plugReplaced_misread :
    ∃ s, Machine.run (pushStep FloatText.empty) .init plugReplaced = some s ∧
      ¬ PostsAsParsed s := by
  have hmisread : (Machine.run (pushStep FloatText.empty) .init plugReplaced).map (fun s =>
      s.parsed.map fun e => (s.map.postCommand e.deviceName e.resourceName).map fun r =>
        r.1.map fun command =>
          (edgexDataProcessEvent FloatText.empty LongDouble.empty Libcbor.ofList 0 e.deviceName
            command e.values true).map fun _ => ()) =
      some (some (.ok (some (.error (.memory .outOfBounds))))) := by
    decide +kernel
  obtain ⟨s, hrun, hs⟩ := Option.map_eq_some_iff.mp hmisread
  obtain ⟨e, he, hpost⟩ := Option.map_eq_some_iff.mp hs
  refine ⟨s, hrun, fun hposts => ?_⟩
  cases hcall : s.map.postCommand e.deviceName e.resourceName with
  | error f =>
    rw [hcall] at hpost
    cases hpost
  | ok r =>
    rw [hcall] at hpost
    obtain ⟨command, hcommand, hevent⟩ := Option.map_eq_some_iff.mp (Except.ok.inj hpost)
    have hall := hposts e he command r.2 (by rw [hcall, ← hcommand])
    have haccess := (hall.accesses FloatText.empty Unit LongDouble.empty Libcbor.ofList 0
      e.deviceName true .outOfBounds).1
    cases hprocess : edgexDataProcessEvent FloatText.empty LongDouble.empty Libcbor.ofList 0
        e.deviceName command e.values true with
    | ok r =>
      rw [hprocess] at hevent
      cases hevent
    | error f =>
      rw [hprocess] at hevent haccess
      exact haccess (congrArg _ (Except.error.inj hevent))

end Devmap

end Zigbee
