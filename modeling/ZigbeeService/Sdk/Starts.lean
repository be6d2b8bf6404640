-- SUMMARY: Over any number of starts, whatever becomes of their requests, the service registers each object at most once.
import ZigbeeService.Rest.ProfileRoundTrip
import ZigbeeService.Sdk.Registration

/-!
# Starts

A start that is cut off anywhere leaves things half registered, and the next one goes on from there.
What makes this safe is that every addition follows a look that did not find the object, and that
what was once accepted is found. Profiles are different: a look that fails is taken for an absent
profile.
-/

namespace Zigbee

open CLib Exchange

variable {σ : Type}

namespace CoreMetadata

section

variable (md : CoreMetadata σ) (svcname : Text)

/-- The object is there. -/
def Found (s : σ) : RegisteredKey → Prop
  | .addressable name => (md.addressable s name).isSome
  | .deviceservice name => (md.deviceservice s name).isSome
  | .device name => name ∈ md.devices s svcname

/-- Nothing has gone. -/
def Grows (s s' : σ) : Prop := ∀ key, md.Found svcname s key → md.Found svcname s' key

/-- What core-metadata accepts is found from then on, and nothing goes. -/
structure Keeps : Prop where
  addAddressable : ∀ s addr s' id, md.addAddressable s addr = some (s', id) →
    md.Grows svcname s s' ∧ md.Found svcname s' (.addressable addr.name)
  addDeviceservice : ∀ s ds s' id, md.addDeviceservice s ds = some (s', id) →
    md.Grows svcname s s' ∧ md.Found svcname s' (.deviceservice ds.name)
  addProfileFile : ∀ s content s' id, md.addProfileFile s content = some (s', id) →
    md.Grows svcname s s'
  addDevice : ∀ s dev s' id, md.addDevice s dev = some (s', id) → dev.serviceName = svcname →
    md.Grows svcname s s' ∧ md.Found svcname s' (.device dev.name)

/-- Everything that was added was added once, and is there. -/
def AddedOnce : Assertion σ RegisteredKey := fun s added =>
  added.Nodup ∧ ∀ key ∈ added, md.Found svcname s key

/-- This object was not added so far, whatever others have done. -/
def NotAdded (key : RegisteredKey) : Assertion σ RegisteredKey := fun s added =>
  md.AddedOnce svcname s added ∧ key ∉ added

/-- The service is registered. -/
def Registered : Assertion σ RegisteredKey := fun s added =>
  md.AddedOnce svcname s added ∧ md.Found svcname s (.deviceservice svcname)

/-- The devices of these names are registered, and the service has added no others. -/
def Listed (names : List Text) : Assertion σ RegisteredKey := fun s added =>
  md.Registered svcname s added ∧ (∀ name ∈ names, md.Found svcname s (.device name)) ∧
    ∀ name, .device name ∈ added → name ∈ names

end

variable {md : CoreMetadata σ} {svcname : Text}

theorem AddedOnce.stable : Stable (md.Grows svcname) (md.AddedOnce svcname) :=
  fun _ _ _ hgrows h => ⟨h.1, fun key hkey => hgrows key (h.2 key hkey)⟩

theorem NotAdded.stable (key : RegisteredKey) :
    Stable (md.Grows svcname) (md.NotAdded svcname key) :=
  fun _ _ _ hgrows h => ⟨AddedOnce.stable _ _ _ hgrows h.1, h.2⟩

theorem Registered.stable : Stable (md.Grows svcname) (md.Registered svcname) :=
  fun _ _ _ hgrows h => ⟨AddedOnce.stable _ _ _ hgrows h.1, hgrows _ h.2⟩

theorem Listed.stable {names : List Text} : Stable (md.Grows svcname) (md.Listed svcname names) :=
  fun _ _ _ hgrows h => ⟨Registered.stable _ _ _ hgrows h.1,
    fun name hname => hgrows _ (h.2.1 name hname), h.2.2⟩

/-- What is not there was not added. -/
theorem AddedOnce.notAdded {s : σ} {added : List RegisteredKey} {key : RegisteredKey}
    (h : md.AddedOnce svcname s added) (hkey : ¬ md.Found svcname s key) :
    md.NotAdded svcname key s added :=
  ⟨h, fun hmem => hkey (h.2 key hmem)⟩

theorem NotAdded.add {s s' : σ} {added : List RegisteredKey} {key : RegisteredKey}
    (h : md.NotAdded svcname key s added)
    (hkeeps : md.Grows svcname s s' ∧ md.Found svcname s' key) :
    md.AddedOnce svcname s' (added ++ [key]) := by
  refine ⟨?_, List.forall_mem_append.mpr
    ⟨fun k hk => hkeeps.1 k (h.1.2 k hk), List.forall_mem_singleton.mpr hkeeps.2⟩⟩
  rw [← List.concat_eq_append]
  exact h.1.1.concat h.2

theorem Listed.seen {s : σ} {added : List RegisteredKey} {names : List Text} {name : Text}
    (h : md.Listed svcname names s added) (hfound : md.Found svcname s (.device name)) :
    md.Listed svcname (name :: names) s added :=
  ⟨h.1, List.forall_mem_cons.mpr ⟨hfound, h.2.1⟩,
    fun n hn => List.mem_cons_of_mem name (h.2.2 n hn)⟩

theorem Listed.add {s s' : σ} {added : List RegisteredKey} {names : List Text} {name : Text}
    (h : md.Listed svcname names s added) (hnew : name ∉ names)
    (hkeeps : md.Grows svcname s s' ∧ md.Found svcname s' (.device name)) :
    md.Listed svcname (name :: names) s' (added ++ [.device name]) := by
  have hnot : md.NotAdded svcname (.device name) s added :=
    ⟨h.1.1, fun hmem => hnew (h.2.2 name hmem)⟩
  refine ⟨⟨hnot.add hkeeps, hkeeps.1 _ h.1.2⟩,
    List.forall_mem_cons.mpr ⟨hkeeps.2, fun n hn => hkeeps.1 _ (h.2.1 n hn)⟩, fun n hn => ?_⟩
  rw [List.mem_append, List.mem_singleton] at hn
  rcases hn with hold | heq
  · exact List.mem_cons_of_mem name (h.2.2 n hold)
  · cases heq
    exact List.mem_cons_self

end CoreMetadata

section

open CoreMetadata

variable {md : CoreMetadata σ} {svcname : Text}

-- ---------------------------------------------------------------------------
-- The service
-- ---------------------------------------------------------------------------

/-- An addressable is only added when none was found; the device service is left as it was. -/
theorem ownAddressable_once {svc : StartingService} (hmd : md.Keeps svc.name) :
    Triple (md.Grows svc.name) (md.NotAdded svc.name (.deviceservice svc.name))
      (ownAddressable md svc) (fun _ => md.NotAdded svc.name (.deviceservice svc.name))
      (md.AddedOnce svc.name) := by
  refine ((Triple.ask (NotAdded.stable _)).fails fun _ _ h => h.1).bind fun addr => ?_
  cases addr with
  | some addr => exact Triple.pure fun _ _ h => h.1
  | none =>
    -- both looks came back empty, so that no earlier start has added either object
    refine Triple.pre ((Triple.tell
      ((NotAdded.stable _).and (NotAdded.stable (.addressable svc.name)))
      (fun s added s' id h hadd => ?_) fun _ _ h => h.1.1).bind
        (Q := fun _ => md.NotAdded svc.name (.deviceservice svc.name))
          fun id => Triple.pure fun _ _ h => h) fun s added h => ⟨h.1, h.1.1.notAdded ?_⟩
    · have honce := h.2.add (hmd.addAddressable _ _ _ _ hadd)
      refine ⟨⟨honce, ?_⟩, honce⟩
      rw [List.mem_append, List.mem_singleton, not_or]
      exact ⟨h.1.2, fun heq => by cases heq⟩
    · rw [CoreMetadata.Found, h.2]
      exact Bool.false_ne_true

/-- The service is there afterwards, and was added only when it was not found. -/
theorem registerService_once {svc : StartingService} (hmd : md.Keeps svc.name) :
    Triple (md.Grows svc.name) (md.AddedOnce svc.name) (registerService md svc)
      (fun _ => md.Registered svc.name) (md.AddedOnce svc.name) := by
  refine (Triple.ask AddedOnce.stable).bind fun ds => ?_
  cases ds with
  | some ds =>
    refine Triple.pure fun s added h => ⟨h.1, ?_⟩
    rw [CoreMetadata.Found, h.2]
    rfl
  | none =>
    refine ((ownAddressable_once hmd).pre fun s added h => h.1.notAdded ?_).bind
      fun addressable => ?_
    · cases svc.labels with
      | none => exact Triple.throw fun _ _ h => h.1
      | some labels =>
        refine (Triple.tell (NotAdded.stable _) (fun s added s' id h hadd => ?_)
          fun _ _ h => h.1).bind (Q := fun _ => md.Registered svc.name)
            fun _ => Triple.pure fun _ _ h => h
        have hkeeps := hmd.addDeviceservice _ _ _ _ hadd
        exact ⟨⟨h.add hkeeps, hkeeps.2⟩, h.add hkeeps⟩
    · rw [CoreMetadata.Found, h.2]
      exact Bool.false_ne_true

-- ---------------------------------------------------------------------------
-- Profiles
-- ---------------------------------------------------------------------------

section Profiles

variable {P : Assertion σ RegisteredKey}

theorem edgexDeviceprofileGetInternal_keeps (hP : Stable (md.Grows svcname) P) (known : List Text)
    (name : Text) : Triple (md.Grows svcname) P (edgexDeviceprofileGetInternal md known name)
      (fun _ => P) P := by
  unfold edgexDeviceprofileGetInternal
  by_cases hknown : name ∈ known
  · rw [if_pos hknown]
    exact Triple.pure fun _ _ h => h
  · rw [if_neg hknown]
    refine (Triple.attempt (Triple.ask hP) (A := fun _ => P) (fun _ _ _ h => h.1)
      fun _ _ h => h).bind fun dp => ?_
    rcases dp with _ | _ | dp
    all_goals exact Triple.pure fun _ _ h => h

/-- The upload of a profile adds nothing but the profile. -/
theorem edgexDeviceAddProfile_keeps (hmd : md.Keeps svcname) (hP : Stable (md.Grows svcname) P)
    (known : List Text) (file : ProfileFile) :
    Triple (md.Grows svcname) P (edgexDeviceAddProfile md known file) (fun _ => P) P := by
  unfold edgexDeviceAddProfile
  cases getProfName file with
  | none => exact Triple.throw fun _ _ h => h
  | some profname =>
    refine (edgexDeviceprofileGetInternal_keeps hP known profname).bind fun r => ?_
    obtain ⟨found, known⟩ := r
    cases found with
    | true => exact Triple.pure fun _ _ h => h
    | false =>
      refine (Triple.tell hP (Q := fun _ => P) (fun s added s' id h hadd => ?_)
        fun _ _ h => h).bind fun _ => ?_
      · rw [List.append_nil]
        have hnext := hP _ _ _ (hmd.addProfileFile _ _ _ _ hadd) h
        exact ⟨hnext, hnext⟩
      · refine (edgexDeviceprofileGetInternal_keeps hP known profname).bind fun r => ?_
        obtain ⟨found, known⟩ := r
        cases found with
        | true => exact Triple.pure fun _ _ h => h
        | false => exact Triple.throw fun _ _ h => h

theorem profilesUploadLoop_keeps (hmd : md.Keeps svcname) (hP : Stable (md.Grows svcname) P)
    (profileDir : Text) (files : List ProfileFile) (known : List Text) :
    Triple (md.Grows svcname) P (profilesUploadLoop md profileDir known files) (fun _ => P) P := by
  induction files generalizing known with
  | nil => exact Triple.pure fun _ _ h => h
  | cons file files ih =>
    rw [profilesUploadLoop]
    split_ifs
    · exact (edgexDeviceAddProfile_keeps hmd hP known file).bind ih
    · exact Triple.throw fun _ _ h => h

theorem edgexDeviceProfilesUpload_keeps (hmd : md.Keeps svcname) (hP : Stable (md.Grows svcname) P)
    (profileDir : Text) (filenames : Option (List ProfileFile)) :
    Triple (md.Grows svcname) P (edgexDeviceProfilesUpload md profileDir filenames)
      (fun _ => P) P := by
  cases filenames with
  | none => exact Triple.throw fun _ _ h => h
  | some filenames => exact profilesUploadLoop_keeps hmd hP profileDir filenames.reverse []

end Profiles

-- ---------------------------------------------------------------------------
-- Devices
-- ---------------------------------------------------------------------------

section Devices

variable {lib : TomlLib} {known : List Text}

/-- No two entries have one name. -/
def DistinctNames (lib : TomlLib) (devs : List TomlTable) : Prop :=
  devs.Pairwise fun t t' =>
    ∀ name, configuredName lib t = .ok name → configuredName lib t' ≠ .ok name

/-- The device of each entry is registered. -/
def Covers (md : CoreMetadata σ) (lib : TomlLib) (svcname : Text) (s : σ)
    (devs : List TomlTable) : Prop :=
  ∀ table ∈ devs, ∃ name, configuredName lib table = .ok name ∧ md.Found svcname s (.device name)

/-- A device that the look finds is there. One that it does not find is none of those known. -/
theorem deviceByname_finds {P : Assertion σ RegisteredKey} (hP : Stable (md.Grows svcname) P)
    (hknown : ∀ s added, P s added → ∀ n ∈ known, md.Found svcname s (.device n)) (name : Text) :
    Triple (md.Grows svcname) P (deviceByname md svcname known name)
      (fun b s added => P s added ∧ (b = true → md.Found svcname s (.device name)) ∧
        (b = false → name ∉ known)) P := by
  unfold deviceByname
  by_cases hmem : name ∈ known
  · rw [if_pos hmem]
    exact Triple.pure fun s added h => ⟨h, fun _ => hknown s added h name hmem, Bool.noConfusion⟩
  · rw [if_neg hmem]
    refine (Triple.attempt (Triple.ask hP)
      (A := fun arrived s added => P s added ∧
        (arrived.getD false = true → md.Found svcname s (.device name)))
      (fun b s added h => ⟨h.1, fun htrue => ?_⟩) (fun s added h => ⟨h, Bool.noConfusion⟩)).bind
        fun arrived => Triple.pure fun s added h => ⟨h.1, h.2, fun _ => hmem⟩
    exact of_decide_eq_true (p := name ∈ md.devices s svcname) (h.2.trans htrue)

/-- A device that is neither known nor of an earlier entry is added at most once. -/
theorem edgexDeviceAddNewDevice_once (hmd : md.Keeps svcname) {done : List Text}
    {dev : ConfiguredDevice} (hsvc : dev.serviceName = svcname) (hnew : dev.name ∉ done) :
    Triple (md.Grows svcname) (md.Listed svcname (done ++ known))
      (edgexDeviceAddNewDevice md known dev)
      (fun _ => md.Listed svcname (dev.name :: done ++ known)) (md.AddedOnce svcname) := by
  subst hsvc
  refine ((deviceByname_finds Listed.stable
    (fun s added h n hn => h.2.1 n (List.mem_append_right done hn)) dev.name).fails
      fun _ _ h => h.1.1).bind fun b => ?_
  cases b with
  | true => exact Triple.pure fun s added h => h.1.seen (h.2.1 rfl)
  | false =>
    refine (Triple.tell (Q := fun _ => md.Listed dev.serviceName (dev.name :: done ++ known))
      (fun _ _ _ hgrows h => ⟨Listed.stable _ _ _ hgrows h.1, Bool.noConfusion, h.2.2⟩)
      (fun s added s' id h hadd => ?_) fun _ _ h => h.1.1.1).bind
        fun _ => Triple.pure fun _ _ h => h
    have hnames : dev.name ∉ done ++ known := by
      rw [List.mem_append, not_or]
      exact ⟨hnew, h.2.2 rfl⟩
    have hlisted := h.1.add hnames (hmd.addDevice _ _ _ _ hadd rfl)
    exact ⟨hlisted, hlisted.1.1⟩

theorem deviceIn_eq_ok {devname : Text} {protocols : List Protocol} {table : TomlTable}
    {dev : ConfiguredDevice} (h : deviceIn lib svcname devname protocols table = .ok dev) :
    dev.name = devname ∧ dev.serviceName = svcname := by
  obtain ⟨autos, -, h⟩ := Checked.bind_eq_ok.mp h
  obtain ⟨labels, -, h⟩ := Checked.bind_eq_ok.mp h
  cases h
  exact ⟨rfl, rfl⟩

theorem edgexDeviceProcessConfiguredDevices_once (hmd : md.Keeps svcname)
    {devs : List TomlTable} (done : List Text) (hdistinct : DistinctNames lib devs)
    (hdone : ∀ table ∈ devs, ∀ name ∈ done, configuredName lib table ≠ .ok name) :
    Triple (md.Grows svcname) (md.Listed svcname (done ++ known))
      (edgexDeviceProcessConfiguredDevices md lib svcname known devs)
      (fun _ s added => md.Registered svcname s added ∧
        (∀ name ∈ done, md.Found svcname s (.device name)) ∧ Covers md lib svcname s devs)
      (md.AddedOnce svcname) := by
  induction devs generalizing done with
  | nil =>
    exact Triple.pure fun s added h =>
      ⟨h.1, fun n hn => h.2.1 n (List.mem_append_left known hn), List.forall_mem_nil _⟩
  | cons table devs ih =>
    rw [DistinctNames, List.pairwise_cons] at hdistinct
    rw [List.forall_mem_cons] at hdone
    rw [edgexDeviceProcessConfiguredDevices]
    cases hname : configuredName lib table with
    | error f =>
      rw [ofChecked_error_bind]
      exact Triple.throw fun _ _ h => h.1.1
    | ok devname =>
      rw [ofChecked_ok_bind]
      have hrest : Triple (md.Grows svcname) (md.Listed svcname (devname :: done ++ known))
          (edgexDeviceProcessConfiguredDevices md lib svcname known devs)
          (fun _ s added => md.Registered svcname s added ∧
            (∀ name ∈ done, md.Found svcname s (.device name)) ∧
              Covers md lib svcname s (table :: devs))
          (md.AddedOnce svcname) := by
        refine (ih (devname :: done) hdistinct.2 fun t ht =>
          List.forall_mem_cons.mpr ⟨hdistinct.1 t ht devname hname, hdone.2 t ht⟩).post
            fun _ s added h => ?_
        obtain ⟨hfound, hfounds⟩ := List.forall_mem_cons.mp h.2.1
        exact ⟨h.1, hfounds, List.forall_mem_cons.mpr ⟨⟨devname, hname, hfound⟩, h.2.2⟩⟩
      refine ((deviceByname_finds Listed.stable
        (fun s added h n hn => h.2.1 n (List.mem_append_right done hn)) devname).fails
          fun _ _ h => h.1.1).bind fun b => ?_
      cases b with
      | true =>
        exact hrest.pre fun s added h => h.1.seen (h.2.1 rfl)
      | false =>
        cases (tomlTableIn table (lit "Protocols")).bind (protocolsIn lib) with
        | none => exact Triple.throw fun _ _ h => h.1.1.1
        | some protocols =>
          dsimp only
          cases hdev : deviceIn lib svcname devname protocols table with
          | error f => exact Triple.throw fun _ _ h => h.1.1.1
          | ok dev =>
            obtain ⟨rfl, hsvc⟩ := deviceIn_eq_ok hdev
            exact ((edgexDeviceAddNewDevice_once hmd hsvc fun hmem => hdone.1 _ hmem hname).pre
              fun _ _ h => h.1).bind fun _ => hrest

end Devices

-- ---------------------------------------------------------------------------
-- Starts
-- ---------------------------------------------------------------------------

/-- A start of this service, with a configuration in which no two devices have one name. -/
structure StartInput.Fits (input : StartInput) (lib : TomlLib) (svcname : Text) : Prop where
  name : input.svc.name = svcname
  distinct : DistinctNames lib input.devs

theorem startConfigured_once (hmd : md.Keeps svcname) {lib : TomlLib} {input : StartInput}
    (hinput : input.Fits lib svcname) :
    Triple (md.Grows svcname) (md.AddedOnce svcname) (startConfigured md lib input)
      (fun _ s added => md.Registered svcname s added ∧ Covers md lib svcname s input.devs)
      (md.AddedOnce svcname) := by
  obtain ⟨rfl, hdistinct⟩ := hinput
  refine (registerService_once hmd).bind fun _ => ?_
  refine ((edgexDeviceProfilesUpload_keeps hmd Registered.stable _ _).fails
    fun _ _ h => h.1).bind fun _ => ?_
  refine ((Triple.ask Registered.stable).fails fun _ _ h => h.1).bind fun known => ?_
  cases input.daemon with
  | false => exact Triple.throw fun _ _ h => h.1.1
  | true =>
    refine ((edgexDeviceProcessConfiguredDevices_once hmd [] hdistinct
      fun _ _ => List.forall_mem_nil _).pre fun s added h => ?_).post
        fun _ s added h => ⟨h.1, h.2.2⟩
    obtain ⟨hregistered, rfl⟩ := h
    exact ⟨hregistered, fun n hn => hn, fun n hn => hregistered.1.2 _ hn⟩

end

/-- One start after the other, each from where the one before it has ended. -/
def starts (md : CoreMetadata σ) (lib : TomlLib) (inputs : List StartInput)
    (net : Net σ RegisteredKey) : Net σ RegisteredKey :=
  inputs.foldl (fun net input => (startConfigured md lib input net).2) net

theorem starts_once {md : CoreMetadata σ} {svcname : Text} (hmd : md.Keeps svcname)
    {lib : TomlLib} {inputs : List StartInput} (hinputs : ∀ input ∈ inputs, input.Fits lib svcname)
    {net : Net σ RegisteredKey} (hnet : Honest (md.Grows svcname) net)
    (honce : md.AddedOnce svcname net.store net.added) :
    Honest (md.Grows svcname) (starts md lib inputs net) ∧
      md.AddedOnce svcname (starts md lib inputs net).store (starts md lib inputs net).added := by
  induction inputs generalizing net with
  | nil => exact ⟨hnet, honce⟩
  | cons input inputs ih =>
    rw [List.forall_mem_cons] at hinputs
    obtain ⟨hnet', honce'⟩ := (startConfigured_once hmd hinputs.1).after
      (I := md.AddedOnce svcname) (fun _ _ _ h => h.1.1) (fun _ _ h => h) hnet honce
    exact ih hinputs.2 hnet' honce'

/-- Core-metadata keeps what it accepts, and others only add to it. Over any number of starts of the
service, each with requests that may be lost or carried out without an answer, its addressable, its
device service and each of its devices are added at most once, and what was added is there. A start
that goes through leaves the service and all its configured devices registered. -/
theorem starts_registerOnce {md : CoreMetadata σ} {svcname : Text} (hmd : md.Keeps svcname)
    {lib : TomlLib} {inputs : List StartInput} (hinputs : ∀ input ∈ inputs, input.Fits lib svcname)
    {net : Net σ RegisteredKey} (hnet : Honest (md.Grows svcname) net) (hfresh : net.added = []) :
    md.AddedOnce svcname (starts md lib inputs net).store (starts md lib inputs net).added ∧
      ∀ input net', input.Fits lib svcname →
        startConfigured md lib input (starts md lib inputs net) = (.ok (), net') →
        md.Found svcname net'.store (.deviceservice svcname) ∧
          Covers md lib svcname net'.store input.devs := by
  have hinit : md.AddedOnce svcname net.store net.added := by
    rw [hfresh]
    exact ⟨List.nodup_nil, List.forall_mem_nil _⟩
  obtain ⟨hnet', honce⟩ := starts_once hmd hinputs hnet hinit
  refine ⟨honce, fun input net' hinput hrun => ?_⟩
  obtain ⟨hregistered, hcovers⟩ :=
    (startConfigured_once hmd hinput).ok _ () net' hnet' honce hrun
  exact ⟨hregistered.2, hcovers⟩

/-! An example: the answer to the first addition is lost. -/

def addKey (s : List RegisteredKey) (key : RegisteredKey) : Option (List RegisteredKey × Text) :=
  if key ∈ s then none else some (key :: s, lit "id")

/-- Core-metadata as the keys of its objects. It refuses a key that is there. -/
def keysOnly : CoreMetadata (List RegisteredKey) where
  deviceservice s name := if .deviceservice name ∈ s then some zigbeeService else none
  addressable s name := if .addressable name ∈ s then some zigbeeAddressable else none
  deviceprofile _ _ := some (lampProfile [] [])
  devices s _ := s.filterMap fun
    | .device name => some name
    | _ => none
  addAddressable s addr := addKey s (.addressable addr.name)
  addDeviceservice s ds := addKey s (.deviceservice ds.name)
  addProfileFile s _ := some (s, lit "id")
  addDevice s dev := addKey s (.device dev.name)

theorem found_keysOnly {svcname : Text} {s : List RegisteredKey} {key : RegisteredKey} :
    keysOnly.Found svcname s key ↔ key ∈ s := by
  cases key with
  | addressable name => simp [CoreMetadata.Found, keysOnly]
  | deviceservice name => simp [CoreMetadata.Found, keysOnly]
  | device name =>
    simp only [CoreMetadata.Found, keysOnly, List.mem_filterMap]
    constructor
    · rintro ⟨_ | _ | n, hkey, heq⟩
      all_goals cases heq
      exact hkey
    · exact fun hmem => ⟨.device name, hmem, rfl⟩

theorem keysOnly_keeps (svcname : Text) : keysOnly.Keeps svcname := by
  have hadd : ∀ {s s' : List RegisteredKey} {key : RegisteredKey} {id : Text},
      addKey s key = some (s', id) →
        keysOnly.Grows svcname s s' ∧ keysOnly.Found svcname s' key := by
    intro s s' key id h
    unfold addKey at h
    split_ifs at h
    cases h
    refine ⟨fun k hk => ?_, found_keysOnly.mpr List.mem_cons_self⟩
    exact found_keysOnly.mpr (List.mem_cons_of_mem key (found_keysOnly.mp hk))
  exact {
    addAddressable := fun s addr s' id h => hadd h
    addDeviceservice := fun s ds s' id h => hadd h
    addProfileFile := fun s content s' id h => by cases h; exact fun key hkey => hkey
    addDevice := fun s dev s' id h _ => hadd h }

def lampStart : StartInput where
  svc := ⟨lit "zigbee", lit "host", 49990, some [lit "lamp"], 0⟩
  profilesDir := lit "res"
  filenames := some []
  daemon := true
  deviceList := some
    [.table [(lit "Name", .raw (lit "\"Lamp\"")), (lit "Protocols", .table [])]]

/-- Nobody else adds anything, and one addition is not answered. -/
def lostAnswer : Net (List RegisteredKey) RegisteredKey where
  store := []
  turns := [⟨id, .answered⟩, ⟨id, .answered⟩, ⟨id, .unanswered⟩] ++
    List.replicate 7 ⟨id, .answered⟩
  added := []

theorem lampStart_fits : lampStart.Fits plainToml (lit "zigbee") where
  name := rfl
  distinct := List.pairwise_singleton _ _

theorem starts_registerOnce_lamp :
    ∃ net', startConfigured keysOnly plainToml lampStart
        (starts keysOnly plainToml [lampStart] lostAnswer) = (.ok (), net') ∧
      net'.added = [.addressable (lit "zigbee"), .deviceservice (lit "zigbee"),
        .device (lit "Lamp")] ∧
      keysOnly.Found (lit "zigbee") net'.store (.deviceservice (lit "zigbee")) := by
  have hnet : Honest (keysOnly.Grows (lit "zigbee")) lostAnswer := by
    intro turn hturn s key hkey
    have hothers : turn.others = id := by
      simp only [lostAnswer, List.mem_append, List.mem_cons, List.not_mem_nil, or_false,
        List.mem_replicate] at hturn
      rcases hturn with (rfl | rfl | rfl) | ⟨-, rfl⟩
      all_goals rfl
    rw [hothers]
    exact hkey
  refine ⟨_, rfl, rfl, ?_⟩
  exact ((starts_registerOnce (keysOnly_keeps _) (List.forall_mem_singleton.mpr lampStart_fits)
    hnet rfl).2 lampStart _ lampStart_fits rfl).1

end Zigbee
