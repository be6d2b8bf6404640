-- SUMMARY: Discovery: user_add_new_device and the rounds of random_discover, and when the identities they hand out are unique.
import ZigbeeService.Lib.Fifo
import ZigbeeService.Lib.Machine
import ZigbeeService.Message.RoundTrip

/-!
# Discovery

A round of `random_discover` takes one reply from `QueueDiscovery`, registers a device for it and
commands the device to take on its new identity. The identity is the text of `address_zigbee`, both
as name and as address, and nothing in the service changes that counter.
-/

namespace Zigbee

open CLib

/-! ## Messages and state -/

/-- The fields of a discovery message, in the order in which they are sent. -/
def RepDiscovery.fields (rep : RepDiscovery) : List Text :=
  [rep.devname, rep.mac, rep.profile, rep.model]

/-- What a device can send: no field holds a separator, and the line fits the receive buffer. -/
def RepDiscovery.Sendable (rep : RepDiscovery) : Prop :=
  (∀ f ∈ rep.fields, hash ∉ f) ∧ (Zigbee.fields rep.fields).length < 255

instance (rep : RepDiscovery) : Decidable rep.Sendable :=
  inferInstanceAs (Decidable (_ ∧ _))

/-- The layout of `template_discovery`, behind its command and up to the end of its line. -/
def discoveryMessage (rep : RepDiscovery) : Text := fields rep.fields ++ lit "\n"

/-- What `edgex_device_add_device` tells core-metadata of a new device. -/
structure NewDevice where
  name : Text
  labels : List Text
  profileName : Text
  protocols : List (Text × List (Text × Text))
  deriving DecidableEq

/-- The device map of the service: the names and ids of its devices. -/
abbrev DeviceMap := List (Text × Text)

/-- A `CMD_ADD_DEVICE` command, and the name that was registered for the reply it answers. -/
structure AddCommand where
  text : Text
  registered : Option Text
  deriving DecidableEq

structure DiscoverState where
  addressZigbee : UInt16
  devices : DeviceMap
  queueDiscovery : Fifo Text
  queueTX : Fifo Text
  /-- The commands that were put on `QueueTX` to add a device, oldest first. -/
  added : List AddCommand

/-! ## The functions of device-random.c and devman.c -/

/-- `edgex_device_add_device`: the id of the device, and the device map once the callback for a
device that core-metadata created has reached it. -/
def edgexDeviceAddDevice (metadata : NewDevice → Option Text) (devices : DeviceMap)
    (dev : NewDevice) : Option Text × DeviceMap :=
  match devices.lookup dev.name with
  | some id => (some id, devices)
  | none =>
    match metadata dev with
    | some id => (some id, (dev.name, id) :: devices)
    | none => (none, devices)

/-- The text of the counter. -/
def DiscoverState.addrStr (s : DiscoverState) : Text := decimal s.addressZigbee.toNat

/-- `repDevice`, printed to the block that is allocated for it. Its size takes up the profile and
the model of the reply, which are not printed, and leaves out the name, which is. -/
def repDevice (rep : RepDiscovery) (addrStr : Text) : Checked Text :=
  let lengRepDevice :=
    UInt32.ofNat (1 + 4 + rep.mac.length + rep.profile.length + rep.model.length + 5)
  mallocSprintf lengRepDevice.toNat
    (fields [[UserCmd.addDevice.code], rep.devname, rep.mac, addrStr, addrStr])

/-- `user_add_new_device`. The counter is printed to `char addr_str[4]` first. -/
def userAddNewDevice (metadata : NewDevice → Option Text) (s : DiscoverState) (input : Text) :
    Checked (Bool × DiscoverState) := do
  let addrStr ← sprintf 4 s.addrStr
  let rep ← takeDiscovery input
  let repDevice ← repDevice rep addrStr
  let dev : NewDevice :=
    { name := addrStr
      labels := [lit "new device"]
      profileName := rep.profile
      protocols := [(lit "zigbee", [(lit "addresss", addrStr)])] }
  match edgexDeviceAddDevice metadata s.devices dev with
  | (some _, devices) =>
    let registered := if s.devices.lookup addrStr = none then some addrStr else none
    .ok (true,
      { s with
        devices := devices
        queueTX := s.queueTX.push repDevice
        added := s.added ++ [⟨repDevice, registered⟩] })
  | (none, _) => .ok (false, s)

/-- One round of the loop in `random_discover`: ask for new devices, and add the one that replied
first, if any did. -/
def discoverRound (metadata : NewDevice → Option Text) (s : DiscoverState) :
    Checked DiscoverState := do
  let s := { s with queueTX := s.queueTX.push (lit "d#newdevice#") }
  match s.queueDiscovery.front with
  | none => .ok s
  | some strDiscovery =>
    let s := { s with queueDiscovery := s.queueDiscovery.drop }
    let (_, s) ← userAddNewDevice metadata s strDiscovery
    .ok s

/-! ## The system -/

inductive DiscoverAction where
  /-- RX puts a reply on `QueueDiscovery`. -/
  | reply (rep : RepDiscovery)
  /-- One of the five rounds of a call of `random_discover`. -/
  | round
  deriving DecidableEq

def discoverStep (metadata : NewDevice → Option Text) (s : DiscoverState) :
    DiscoverAction → Option (Checked DiscoverState)
  | .reply rep =>
    if rep.Sendable then
      some (.ok { s with queueDiscovery := s.queueDiscovery.push (discoveryMessage rep) })
    else none
  | .round => some (discoverRound metadata s)

/-- `address_zigbee`. -/
def addressZigbee : UInt16 := 4689

/-- The service starts with a counter, with the devices that are known already and with empty
queues. -/
def DiscoverState.init (addressZigbee : UInt16) (devices : DeviceMap) : DiscoverState where
  addressZigbee := addressZigbee
  devices := devices
  queueDiscovery := Fifo.empty 10 (by decide)
  queueTX := Fifo.empty 10 (by decide)
  added := []

/-! ## Identities -/

/-- The name a device reads from the command: `arr[3]` in `device_repadd_device`. -/
def AddCommand.name (c : AddCommand) : Option Text := (c.text.splitOn hash)[3]?

/-- The address it reads: `arr[4]`. -/
def AddCommand.addr (c : AddCommand) : Option Text := (c.text.splitOn hash)[4]?

/-- No two commands give out one name or one address, and each names a device that was registered
for its own reply. -/
structure UniqueIdentities (added : List AddCommand) : Prop where
  names : (added.map AddCommand.name).Nodup
  addrs : (added.map AddCommand.addr).Nodup
  registered : ∀ c ∈ added, ∃ name, c.registered = some name ∧ c.name = some name

/-- What the `sprintf` of `repDevice` writes, with the terminator. -/
def repDeviceWritten (rep : RepDiscovery) (addressZigbee : UInt16) : Nat :=
  rep.devname.length + rep.mac.length + 2 * (decimal addressZigbee.toNat).length + 7

/-- The counter fits `addr_str`, and the command fits the block of `repDevice`. -/
structure TextsFit (rep : RepDiscovery) (addressZigbee : UInt16) : Prop where
  addr : addressZigbee < 1000
  block : repDeviceWritten rep addressZigbee ≤
    (rep.mac.length + rep.profile.length + rep.model.length + 10) % 2 ^ 32

/-- The reply that a round takes from its queue. -/
def DiscoverState.nextReply (s : DiscoverState) : Option RepDiscovery :=
  s.queueDiscovery.front.bind fun str => (takeDiscovery str).toOption

/-- A round that has a reply to process has room for the texts it prints, and finds no device of the
name it would give out. -/
def ReplyFits (s : DiscoverState) : DiscoverAction → Prop
  | .reply _ => True
  | .round => ∀ rep ∈ s.nextReply,
    TextsFit rep s.addressZigbee ∧ s.devices.lookup s.addrStr = none

instance (rep : RepDiscovery) (addressZigbee : UInt16) : Decidable (TextsFit rep addressZigbee) :=
  decidable_of_iff (_ ∧ _) ⟨fun h => ⟨h.1, h.2⟩, fun h => ⟨h.addr, h.block⟩⟩

instance (s : DiscoverState) : ∀ a, Decidable (ReplyFits s a)
  | .reply _ => .isTrue trivial
  | .round => inferInstanceAs (Decidable (∀ rep ∈ s.nextReply, _))

/-- The queue holds nothing but discovery messages. -/
def QueueSendable (s : DiscoverState) : Prop :=
  ∀ str ∈ s.queueDiscovery.items, ∃ rep : RepDiscovery, rep.Sendable ∧ str = discoveryMessage rep

/-- A reply led to the command `c`, whether or not a device was registered for it. -/
structure Adds (s t : DiscoverState) (c : AddCommand) : Prop where
  added : t.added = s.added ++ [c]
  name : c.name = some s.addrStr
  addr : c.addr = some s.addrStr
  known : t.devices.lookup s.addrStr ≠ none
  registered : c.registered = if s.devices.lookup s.addrStr = none then some s.addrStr else none

/-- No command was sent: core-metadata refused to create the device. -/
structure Refuses (s t : DiscoverState) : Prop where
  added : t.added = s.added
  devices : t.devices = s.devices
  free : s.devices.lookup s.addrStr = none

/-! ## Printing and parsing -/

theorem takeDiscovery_discoveryMessage {rep : RepDiscovery} (h : rep.Sendable) :
    takeDiscovery (discoveryMessage rep) = .ok rep := by
  obtain ⟨hfields, hlen⟩ := h
  rw [takeDiscovery_eq, discoveryMessage]
  have hlen' : (fields rep.fields ++ lit "\n").length < 2 ^ 31 := by
    rw [List.length_append]
    have hone : (lit "\n").length = 1 := rfl
    omega
  rw [RepDiscovery.fields] at *
  rw [takeHeader_fields hlen' hfields, Checked.ok_bind]

/-- `sprintf (addr_str, "%u", address_zigbee)` has room for three digits only. -/
theorem addrStr_eq_ok {addressZigbee : UInt16} {t : Text} :
    sprintf 4 (decimal addressZigbee.toNat) = .ok t ↔
      t = decimal addressZigbee.toNat ∧ addressZigbee < 1000 := by
  rw [sprintf_decimal_eq_ok (by decide), UInt16.lt_iff_toNat_lt]
  rfl

/-- `repDevice` has room for the name and twice the address when they take no more than the profile
and the model, up to three bytes. -/
theorem repDevice_eq_ok {rep : RepDiscovery} {addressZigbee : UInt16} {t : Text} :
    repDevice rep (decimal addressZigbee.toNat) = .ok t ↔
      t = fields [[UserCmd.addDevice.code], rep.devname, rep.mac, decimal addressZigbee.toNat,
          decimal addressZigbee.toNat] ∧
        repDeviceWritten rep addressZigbee ≤
          (rep.mac.length + rep.profile.length + rep.model.length + 10) % 2 ^ 32 := by
  unfold repDevice repDeviceWritten
  dsimp only
  rw [mallocSprintf_uint32_eq_ok]
  refine and_congr_right fun _ => ?_
  simp only [UInt32.toNat_ofNat', fields_cons, fields_nil, List.length_append, List.length_cons,
    List.length_nil]
  omega

/-- The fields a device splits the command into. -/
theorem AddCommand.splitOn_fields {rep : RepDiscovery} (h : rep.Sendable) (n : Nat) :
    (fields [[UserCmd.addDevice.code], rep.devname, rep.mac, decimal n, decimal n]).splitOn hash =
      [[UserCmd.addDevice.code], rep.devname, rep.mac, decimal n, decimal n] ++ [[]] := by
  have hfields := h.1
  simp only [RepDiscovery.fields, List.forall_mem_cons] at hfields
  obtain ⟨hname, hmac, -⟩ := hfields
  have hn := (isDecimal_decimal n).hash_notMem
  apply Zigbee.splitOn_fields
  simpa [hname, hmac, hn] using (by decide : hash ≠ UserCmd.addDevice.code)

/-! ## Processing a reply -/

/-- The device map knows the device that was asked for, when there is an id for it. -/
theorem edgexDeviceAddDevice_lookup {metadata : NewDevice → Option Text}
    {devices devices' : DeviceMap} {dev : NewDevice} {id : Text}
    (h : edgexDeviceAddDevice metadata devices dev = (some id, devices')) :
    devices'.lookup dev.name = some id := by
  unfold edgexDeviceAddDevice at h
  split at h
  · next hknown =>
    cases h
    exact hknown
  · split at h
    · cases h
      simp
    · cases h

theorem edgexDeviceAddDevice_none {metadata : NewDevice → Option Text}
    {devices devices' : DeviceMap} {dev : NewDevice}
    (h : edgexDeviceAddDevice metadata devices dev = (none, devices')) :
    devices.lookup dev.name = none ∧ devices' = devices := by
  unfold edgexDeviceAddDevice at h
  split at h
  · cases h
  · next hnew =>
    split at h
    · cases h
    · cases h
      exact ⟨hnew, rfl⟩

section Reply

variable {metadata : NewDevice → Option Text} {s t : DiscoverState} {rep : RepDiscovery}

/-- A reply is processed when its texts fit. -/
theorem userAddNewDevice_returns_iff (h : rep.Sendable) :
    (∃ r, userAddNewDevice metadata s (discoveryMessage rep) = .ok r) ↔
      TextsFit rep s.addressZigbee := by
  simp only [userAddNewDevice, DiscoverState.addrStr, Checked.bind_eq_ok, addrStr_eq_ok,
    takeDiscovery_discoveryMessage h, Except.ok.injEq]
  constructor
  · rintro ⟨r, _, ⟨rfl, haddr⟩, _, rfl, text, htext, -⟩
    exact ⟨haddr, (repDevice_eq_ok.mp htext).2⟩
  · intro hfits
    have htext := repDevice_eq_ok.mpr ⟨rfl, hfits.block⟩
    rcases hadd : edgexDeviceAddDevice metadata s.devices
      ⟨decimal s.addressZigbee.toNat, [lit "new device"], rep.profile,
        [(lit "zigbee", [(lit "addresss", decimal s.addressZigbee.toNat)])]⟩ with ⟨_ | id, devices⟩
    · exact ⟨_, _, ⟨rfl, hfits.addr⟩, _, rfl, _, htext, by rw [hadd]⟩
    · exact ⟨_, _, ⟨rfl, hfits.addr⟩, _, rfl, _, htext, by rw [hadd]⟩

/-- What processing a reply does. -/
theorem userAddNewDevice_cases (h : rep.Sendable) {b : Bool}
    (hadd : userAddNewDevice metadata s (discoveryMessage rep) = .ok (b, t)) :
    t.addressZigbee = s.addressZigbee ∧ t.queueDiscovery = s.queueDiscovery ∧
      (Refuses s t ∨ ∃ c, Adds s t c) := by
  simp only [userAddNewDevice, takeDiscovery_discoveryMessage h, Checked.bind_eq_ok,
    Except.ok.injEq] at hadd
  obtain ⟨_, haddr, _, rfl, text, htext, hadd⟩ := hadd
  obtain ⟨rfl, -⟩ := addrStr_eq_ok.mp haddr
  obtain ⟨rfl, -⟩ := repDevice_eq_ok.mp htext
  split at hadd
  · next id devices hid =>
    cases hadd
    refine ⟨rfl, rfl, .inr ⟨_, rfl, ?_, ?_, ?_, rfl⟩⟩
    · rw [AddCommand.name, DiscoverState.addrStr, AddCommand.splitOn_fields h]
      rfl
    · rw [AddCommand.addr, DiscoverState.addrStr, AddCommand.splitOn_fields h]
      rfl
    · rw [DiscoverState.addrStr, edgexDeviceAddDevice_lookup hid]
      exact Option.some_ne_none id
  · next devices hid =>
    cases hadd
    obtain ⟨hfree, -⟩ := edgexDeviceAddDevice_none hid
    exact ⟨rfl, rfl, .inl ⟨rfl, rfl, hfree⟩⟩

/-! ## Steps and runs -/

theorem DiscoverState.nextReply_none (h : s.queueDiscovery.front = none) : s.nextReply = none := by
  rw [nextReply, h, Option.bind_none]

/-- The head of the queue is the message of the next reply. -/
theorem QueueSendable.front (hq : QueueSendable s) {str : Text}
    (h : s.queueDiscovery.front = some str) :
    ∃ rep : RepDiscovery, rep.Sendable ∧ str = discoveryMessage rep ∧ s.nextReply = some rep := by
  obtain ⟨rep, hrep, rfl⟩ := hq str (List.mem_of_head? h)
  refine ⟨rep, hrep, rfl, ?_⟩
  rw [DiscoverState.nextReply, h, Option.bind_some, takeDiscovery_discoveryMessage hrep]
  rfl

/-- A round whose texts fit succeeds. -/
theorem discoverRound_returns (metadata : NewDevice → Option Text) (hq : QueueSendable s)
    (hfits : ReplyFits s .round) : ∃ t, discoverRound metadata s = .ok t := by
  unfold discoverRound
  dsimp only
  split
  · exact ⟨_, rfl⟩
  · next str hfront =>
    obtain ⟨rep, hrep, rfl, hnext⟩ := hq.front hfront
    have hreply : ∃ r, userAddNewDevice metadata { s with
        queueTX := s.queueTX.push (lit "d#newdevice#")
        queueDiscovery := s.queueDiscovery.drop } (discoveryMessage rep) = .ok r :=
      (userAddNewDevice_returns_iff hrep).mpr (hfits rep hnext).1
    obtain ⟨⟨b, t⟩, hok⟩ := hreply
    exact ⟨t, by rw [hok]; rfl⟩

/-- What a round does: it keeps the counter, and either it sends no command and the name it would
have given out is free, or it sends one. -/
theorem discoverRound_cases (hq : QueueSendable s) (h : discoverRound metadata s = .ok t) :
    t.addressZigbee = s.addressZigbee ∧ QueueSendable t ∧
      (∀ rep ∈ s.nextReply, TextsFit rep s.addressZigbee) ∧
      (t.added = s.added ∧ t.devices = s.devices ∧ ReplyFits s .round ∨
        s.nextReply ≠ none ∧ ∃ c, Adds s t c) := by
  unfold discoverRound at h
  dsimp only at h
  split at h
  · next hfront =>
    cases h
    have hnone := DiscoverState.nextReply_none hfront
    have hno : ∀ {P : RepDiscovery → Prop}, ∀ rep ∈ s.nextReply, P rep := by simp [hnone]
    exact ⟨rfl, hq, hno, .inl ⟨rfl, rfl, hno⟩⟩
  · next str hfront =>
    obtain ⟨rep, hrep, rfl, hnext⟩ := hq.front hfront
    obtain ⟨⟨b, u⟩, hok, h⟩ := Checked.bind_eq_ok.mp h
    cases h
    have hfits := (userAddNewDevice_returns_iff hrep).mp ⟨_, hok⟩
    have hall : ∀ rep' ∈ s.nextReply, TextsFit rep' s.addressZigbee := by
      rw [hnext]
      rintro _ ⟨⟩
      exact hfits
    obtain ⟨hctr, hqueue, hcases⟩ := userAddNewDevice_cases hrep hok
    refine ⟨hctr, fun str hstr => ?_, hall, ?_⟩
    · rw [hqueue] at hstr
      exact hq str (List.mem_of_mem_tail hstr)
    · rcases hcases with href | ⟨c, hadd⟩
      · exact .inl ⟨href.added, href.devices, fun rep' hrep' => ⟨hall rep' hrep', href.free⟩⟩
      · exact .inr ⟨by simp [hnext], c, hadd.added, hadd.name, hadd.addr, hadd.known,
          hadd.registered⟩

/-- What a step can do. -/
theorem discoverStep_cases {a : DiscoverAction} (hq : QueueSendable s)
    (h : discoverStep metadata s a = some (.ok t)) :
    t.addressZigbee = s.addressZigbee ∧ QueueSendable t ∧
      (t.added = s.added ∧ t.devices = s.devices ∧ ReplyFits s a ∨
        a = .round ∧ (∀ rep ∈ s.nextReply, TextsFit rep s.addressZigbee) ∧ s.nextReply ≠ none ∧
          ∃ c, Adds s t c) := by
  cases a with
  | reply rep =>
    simp only [discoverStep] at h
    split at h
    case isFalse => cases h
    case isTrue hrep =>
      cases h
      refine ⟨rfl, fun str hstr => ?_, .inl ⟨rfl, rfl, trivial⟩⟩
      rcases Fifo.mem_push.mp hstr with hold | rfl
      · exact hq str (Fifo.room_subset _ hold)
      · exact ⟨rep, hrep, rfl⟩
  | round =>
    obtain ⟨hctr, hq', hfits, hkept | ⟨hnext, hadds⟩⟩ := discoverRound_cases hq (Option.some.inj h)
    · exact ⟨hctr, hq', .inl hkept⟩
    · exact ⟨hctr, hq', .inr ⟨rfl, hfits, hnext, hadds⟩⟩

/-- What holds while every command was sent for a free name: there is at most one, and it is in the
device map. -/
structure OneIdentity (s : DiscoverState) : Prop where
  sendable : QueueSendable s
  unique : UniqueIdentities s.added
  known : s.added ≠ [] → s.devices.lookup s.addrStr ≠ none

/-- A step whose reply fits succeeds, and keeps the identities unique. -/
theorem OneIdentity.step {a : DiscoverAction} {r : Checked DiscoverState} (hs : OneIdentity s)
    (hfits : ReplyFits s a) (h : discoverStep metadata s a = some r) :
    ∃ t, r = .ok t ∧ OneIdentity t := by
  obtain ⟨t, rfl⟩ : ∃ t, r = .ok t := by
    cases a with
    | reply rep =>
      simp only [discoverStep] at h
      split at h
      · exact ⟨_, (Option.some.inj h).symm⟩
      · cases h
    | round =>
      obtain ⟨t, ht⟩ := discoverRound_returns metadata hs.sendable hfits
      exact ⟨t, (Option.some.inj h).symm.trans ht⟩
  refine ⟨t, rfl, ?_⟩
  obtain ⟨hctr, hq, hcases⟩ := discoverStep_cases hs.sendable h
  have haddr : t.addrStr = s.addrStr := by rw [DiscoverState.addrStr, hctr]; rfl
  rcases hcases with ⟨hadded, hdev, -⟩ | ⟨rfl, -, hnext, c, hc⟩
  · exact ⟨hq, hadded ▸ hs.unique, by rw [hadded, hdev, haddr]; exact hs.known⟩
  · obtain ⟨rep, hrep⟩ := Option.ne_none_iff_exists'.mp hnext
    have hnew := (hfits rep hrep).2
    have hempty : s.added = [] := by
      by_contra hne
      exact hs.known hne hnew
    have hadded : t.added = [c] := by rw [hc.added, hempty]; rfl
    refine ⟨hq, ?_, fun _ => haddr ▸ hc.known⟩
    rw [hadded]
    refine ⟨List.nodup_singleton _, List.nodup_singleton _, fun c' hc' => ?_⟩
    rw [List.mem_singleton] at hc'
    subst hc'
    exact ⟨s.addrStr, by rw [hc.registered, if_pos hnew], hc.name⟩

/-- A step that succeeds and ends with unique identities started with them, and its reply fitted. -/
theorem uniqueIdentities_of_step {a : DiscoverAction} (hq : QueueSendable s)
    (h : discoverStep metadata s a = some (.ok t)) (ht : UniqueIdentities t.added) :
    UniqueIdentities s.added ∧ ReplyFits s a := by
  obtain ⟨-, -, hcases⟩ := discoverStep_cases hq h
  rcases hcases with ⟨hadded, -, hfits⟩ | ⟨rfl, hfits, -, c, hc⟩
  · exact ⟨hadded ▸ ht, hfits⟩
  · have hsub : s.added.Sublist t.added := hc.added ▸ List.sublist_append_left _ _
    have hnew : s.devices.lookup s.addrStr = none := by
      obtain ⟨name, hname, -⟩ := ht.registered c (by rw [hc.added]; simp)
      by_contra hknown
      rw [hc.registered, if_neg hknown] at hname
      cases hname
    exact ⟨⟨ht.names.sublist (hsub.map _), ht.addrs.sublist (hsub.map _),
      fun c' hc' => ht.registered c' (hsub.subset hc')⟩, fun rep hrep => ⟨hfits rep hrep, hnew⟩⟩

end Reply

/-- The run did not fault, and the commands it sent hand out unique identities. -/
def HandsOutUnique (r : Checked DiscoverState) : Prop := ∃ s, r = .ok s ∧ UniqueIdentities s.added

theorem queueSendable_init (addressZigbee : UInt16) (devices : DeviceMap) :
    QueueSendable (DiscoverState.init addressZigbee devices) := by
  intro str hstr
  cases hstr

/-- Whatever the counter is, the replies of a run are processed and get unique identities exactly
when each finds room for its texts, and no device that is already called by the counter. -/
theorem discovery_uniqueIdentities_iff {metadata : NewDevice → Option Text} {devices : DeviceMap}
    {addressZigbee : UInt16} {acts : List DiscoverAction} {r : Checked DiscoverState}
    (hrun : Machine.run (Machine.checked (discoverStep metadata))
      (.ok (DiscoverState.init addressZigbee devices)) acts = some r) :
    HandsOutUnique r ↔
      Machine.Guarded (Machine.checked (discoverStep metadata)) (Machine.OnOk ReplyFits)
        (.ok (DiscoverState.init addressZigbee devices)) acts := by
  have hq := queueSendable_init addressZigbee devices
  constructor
  · rintro ⟨s, rfl, hs⟩
    exact Machine.Guarded.checked_of_final (I := QueueSendable)
      (fun hq h => (discoverStep_cases hq h).2.1) uniqueIdentities_of_step hrun hq hs
  · intro hg
    have hinit : OneIdentity (DiscoverState.init addressZigbee devices) :=
      ⟨hq, ⟨List.nodup_nil, List.nodup_nil, by simp [DiscoverState.init]⟩,
        by simp [DiscoverState.init]⟩
    obtain ⟨s, rfl, hs⟩ := hg.checked_total OneIdentity.step hrun hinit
    exact ⟨s, rfl, hs.unique⟩

/-- The demo device as it replies to discovery. -/
def demoReply (mac : Text) : RepDiscovery := ⟨lit "newdevice", mac, lit "ExampleSensor", lit "BKHN"⟩

/-- A counter of three digits: one new device gets an identity of its own. -/
theorem discovery_uniqueIdentities_iff_demo :
    ∃ r, Machine.run (Machine.checked (discoverStep fun _ => some (lit "id")))
        (.ok (DiscoverState.init 468 [])) [.round, .reply (demoReply (lit "29081997")), .round] =
          some r ∧ HandsOutUnique r := by
  obtain ⟨r, hr⟩ : ∃ r, Machine.run (Machine.checked (discoverStep fun _ => some (lit "id")))
      (.ok (DiscoverState.init 468 [])) [.round, .reply (demoReply (lit "29081997")), .round] =
        some r :=
    Option.isSome_iff_exists.mp (by decide)
  exact ⟨r, hr, (discovery_uniqueIdentities_iff hr).mpr (by decide)⟩

/-- With the counter of the source no reply fits. -/
theorem replyFits_addressZigbee {s : DiscoverState} (h : s.addressZigbee = addressZigbee) :
    ReplyFits s .round ↔ s.nextReply = none := by
  rw [Option.eq_none_iff_forall_not_mem]
  refine forall₂_congr fun rep _ => iff_of_false ?_ not_false
  rintro ⟨hfits, -⟩
  rw [h] at hfits
  exact absurd hfits.addr (by decide)

theorem handsOutUnique_iff {r : Checked DiscoverState} :
    HandsOutUnique r ↔ ∃ added, r.map DiscoverState.added = .ok added ∧ UniqueIdentities added := by
  cases r with
  | error e => simp [HandsOutUnique, Except.map]
  | ok s => simp [HandsOutUnique, Except.map]

/-- The first reply already overruns `addr_str`. With a counter of three digits, a second device,
with another MAC address, is told to take the identity of the first. -/
theorem discovery_two_devices_one_name :
    let step := Machine.checked (discoverStep fun _ => some (lit "id"))
    let first := [.reply (demoReply (lit "29081997")), .round]
    let second := [.reply (demoReply (lit "29081998")), .round]
    (∃ r, Machine.run step (.ok (DiscoverState.init addressZigbee [])) first = some r ∧
      r.map DiscoverState.added = .error .outOfBounds ∧ ¬ HandsOutUnique r) ∧
      ∃ r, Machine.run step (.ok (DiscoverState.init 468 [])) (first ++ second) = some r ∧
        r.map DiscoverState.added =
          .ok [⟨lit "e#newdevice#29081997#468#468#", some (lit "468")⟩,
            ⟨lit "e#newdevice#29081998#468#468#", none⟩] ∧
        ¬ HandsOutUnique r := by
  constructor
  · obtain ⟨r, hr, hmap⟩ := Option.map_eq_some_iff.mp (by decide :
      (Machine.run (Machine.checked (discoverStep fun _ => some (lit "id")))
        (.ok (DiscoverState.init addressZigbee []))
        [.reply (demoReply (lit "29081997")), .round]).map (Except.map DiscoverState.added) =
          some (.error .outOfBounds))
    refine ⟨r, hr, hmap, ?_⟩
    rw [handsOutUnique_iff, hmap]
    rintro ⟨added, hadded, -⟩
    cases hadded
  · obtain ⟨r, hr, hmap⟩ := Option.map_eq_some_iff.mp (by decide :
      (Machine.run (Machine.checked (discoverStep fun _ => some (lit "id")))
        (.ok (DiscoverState.init 468 []))
        [.reply (demoReply (lit "29081997")), .round, .reply (demoReply (lit "29081998")),
          .round]).map (Except.map DiscoverState.added) =
          some (.ok [⟨lit "e#newdevice#29081997#468#468#", some (lit "468")⟩,
            ⟨lit "e#newdevice#29081998#468#468#", none⟩]))
    refine ⟨r, hr, hmap, ?_⟩
    rw [handsOutUnique_iff, hmap]
    rintro ⟨added, hadded, hunique⟩
    cases hadded
    exact absurd hunique.names (by decide)

end Zigbee
