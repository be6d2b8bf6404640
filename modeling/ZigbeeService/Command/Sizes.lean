-- SUMMARY: The sizes of the blocks that composed commands are printed to, and which commands fit them.
import ZigbeeService.Command.Compose
import ZigbeeService.Driver.Discovery

/-!
# The sizes of composed commands

`user_gethandler_write` and `user_puthandler_write` once more, with the widths of the variables that
hold their lengths, beside `user_add_new_device`. Each writes to a block whose size it adds up by
hand; a text fits when it leaves room for its terminator.
-/

namespace Zigbee

open CLib

namespace Sized

/-! ## The functions -/

/-- `user_gethandler_write`. The length is an `int`. -/
def userGethandlerWrite (devname : Text) (requests : List CommandRequest) : Checked Text := do
  let fullResname ← appendResnames requests []
  let length :=
    toInt32 (devname.length + (lit "100").length + 5 + fullResname.length + 6 : Nat)
  mallocSprintf length
    (fields [[UserCmd.get.code], devname, lit "100", decimalInt (toInt32 requests.length)] ++
      fullResname)

/-- `user_puthandler_write`. The length is a `uint32_t`. -/
def userPuthandlerWrite (ft : FloatText) (devname : Text) (requests : List CommandRequest)
    (values : List CommandResult) : Checked Text := do
  let fullValue ← appendValues ft requests values []
  let length :=
    UInt32.ofNat (devname.length + (lit "0").length + 5 + fullValue.length + 6)
  mallocSprintf length.toNat
    (fields [[UserCmd.put.code], devname, lit "0", decimalInt (toInt32 requests.length)] ++
      fullValue)

/-- What `user_add_new_device` prints for a reply: the counter to `addr_str`, then the command to
`repDevice`. -/
def repDevice (rep : RepDiscovery) (addressZigbee : UInt16) : Checked Text := do
  let addrStr ← sprintf 4 (decimal addressZigbee.toNat)
  Zigbee.repDevice rep addrStr

/-! ## What fits -/

/-- A length that is a little more than the text needs is enough unless its `int` wraps. -/
theorem lt_toInt32_iff {len size : Nat} (hlt : len < size) (hle : size < len + 2 ^ 31) :
    (len : Int) < toInt32 size ↔ size < 2 ^ 31 := by
  constructor
  · intro h
    have hbound := (toInt32_bounds size).2
    have hmod := Int.bmod_eq_self_sub_mul_bdiv (size : Int) (2 ^ 32)
    simp only [toInt32, toSigned] at h hbound
    omega
  · intro h
    rw [toInt32_natCast h]
    exact_mod_cast hlt

/-- A length that is a little more than the text needs is enough unless its `uint32_t` wraps. -/
theorem lt_uint32_iff {len size : Nat} (hlt : len < size) (hle : size < len + 2 ^ 31) :
    len < (UInt32.ofNat size).toNat ↔ size < 2 ^ 32 := by
  rw [UInt32.toNat_ofNat']
  omega

/-- The text of a command: the header, with a count of two digits at most, and what was collected. -/
theorem length_command (code : UInt8) (devname word collected : Text) {n : Nat} (hn : n < 100) :
    ∃ digits, 1 ≤ digits ∧ digits ≤ 2 ∧
      (fields [[code], devname, word, decimalInt (toInt32 n)] ++ collected).length =
        devname.length + word.length + digits + collected.length + 5 := by
  obtain ⟨htext, hdigits⟩ := decimalInt_count hn
  refine ⟨(decimal n).length, List.length_pos_iff.mpr (decimal_ne_nil n), hdigits, ?_⟩
  rw [htext]
  simp only [fields_cons, fields_nil, List.length_append, List.length_cons, List.length_nil]
  omega

section Fits

variable {ft : FloatText} {devname msg : Text}

/-- `user_gethandler_write` composes what it does without a bound on its length, as long as that is
an `int`. -/
theorem userGethandlerWrite_eq_ok {requests : List CommandRequest} :
    userGethandlerWrite devname requests = .ok msg ↔
      Zigbee.userGethandlerWrite devname requests = .ok msg ∧
        devname.length + (fields (requests.map CommandRequest.resname)).length + 14 < 2 ^ 31 := by
  have hcount := length_le_length_fields (requests.map CommandRequest.resname)
  rw [List.length_map] at hcount
  have hword : (lit "100").length = 3 := rfl
  simp only [userGethandlerWrite, Zigbee.userGethandlerWrite, Checked.bind_eq_ok,
    appendResnames_eq_ok [] (by decide), List.nil_append, mallocSprintf_int_eq_ok, sprintf_eq_ok,
    hword]
  generalize fields (requests.map CommandRequest.resname) = names at *
  have hroom (hfit : names.length < 100) :=
    length_command UserCmd.get.code devname (lit "100") names (Nat.lt_of_le_of_lt hcount hfit)
  constructor
  · rintro ⟨_, ⟨rfl, hfit⟩, rfl, hlt⟩
    obtain ⟨digits, hpos, htwo, hlen⟩ := hroom hfit
    rw [hlen, hword, lt_toInt32_iff (by omega) (by omega)] at hlt
    exact ⟨⟨_, ⟨rfl, hfit⟩, rfl, by omega⟩, by omega⟩
  · rintro ⟨⟨_, ⟨rfl, hfit⟩, rfl, hlt⟩, hshort⟩
    obtain ⟨digits, hpos, htwo, hlen⟩ := hroom hfit
    refine ⟨_, ⟨rfl, hfit⟩, rfl, ?_⟩
    rw [hlen, hword, lt_toInt32_iff (by omega) (by omega)]
    omega

/-- A GET command fits when the resource names fit the scratch buffer and the length is an `int`. -/
theorem userGethandlerWrite_returns_iff {requests : List CommandRequest} :
    (∃ msg, userGethandlerWrite devname requests = .ok msg) ↔
      (fields (requests.map CommandRequest.resname)).length < 100 ∧
        devname.length + (fields (requests.map CommandRequest.resname)).length + 14 < 2 ^ 31 := by
  simp only [userGethandlerWrite_eq_ok, Zigbee.userGethandlerWrite_eq_ok, exists_and_right,
    exists_eq, true_and]

/-- The collected fields of a PUT request. -/
def valueFields (ft : FloatText) (pairs : List (CommandRequest × CommandResult)) : Text :=
  fields (pairs.map fun p => valueField ft p.1 p.2)

theorem length_pairs (pairs : List (CommandRequest × CommandResult)) :
    (pairs.map Prod.fst).length = (pairs.map Prod.snd).length := by
  rw [List.length_map, List.length_map]

theorem zipWith_pairs (ft : FloatText) (pairs : List (CommandRequest × CommandResult)) :
    List.zipWith (valueField ft) (pairs.map Prod.fst) (pairs.map Prod.snd) =
      pairs.map fun p => valueField ft p.1 p.2 := by
  rw [List.zipWith_map, List.zipWith_self]

/-- `user_puthandler_write` composes what it does without a bound on its length, as long as that is
a `uint32_t`. -/
theorem userPuthandlerWrite_eq_ok {pairs : List (CommandRequest × CommandResult)} :
    userPuthandlerWrite ft devname (pairs.map Prod.fst) (pairs.map Prod.snd) = .ok msg ↔
      Zigbee.userPuthandlerWrite ft devname (pairs.map Prod.fst) (pairs.map Prod.snd) = .ok msg ∧
        devname.length + (valueFields ft pairs).length + 12 < 2 ^ 32 := by
  have hcount := length_le_length_fields (pairs.map fun p => valueField ft p.1 p.2)
  rw [List.length_map] at hcount
  have hword : (lit "0").length = 1 := rfl
  simp only [userPuthandlerWrite, Zigbee.userPuthandlerWrite, Checked.bind_eq_ok,
    appendValues_eq_ok [] (by decide) (length_pairs pairs), zipWith_pairs, List.nil_append,
    mallocSprintf_uint32_eq_ok, sprintf_eq_ok, hword, List.length_map, valueFields]
  generalize fields (pairs.map fun p => valueField ft p.1 p.2) = collected at *
  have hroom (hfit : collected.length < 100) :=
    length_command UserCmd.put.code devname (lit "0") collected (Nat.lt_of_le_of_lt hcount hfit)
  constructor
  · rintro ⟨_, ⟨rfl, hfit⟩, rfl, hlt⟩
    obtain ⟨digits, hpos, htwo, hlen⟩ := hroom hfit
    rw [hlen, hword, lt_uint32_iff (by omega) (by omega)] at hlt
    exact ⟨⟨_, ⟨rfl, hfit⟩, rfl, by omega⟩, by omega⟩
  · rintro ⟨⟨_, ⟨rfl, hfit⟩, rfl, hlt⟩, hshort⟩
    obtain ⟨digits, hpos, htwo, hlen⟩ := hroom hfit
    refine ⟨_, ⟨rfl, hfit⟩, rfl, ?_⟩
    rw [hlen, hword, lt_uint32_iff (by omega) (by omega)]
    omega

/-- A PUT command fits when the names and the values fit the scratch buffer and the length is a
`uint32_t`. -/
theorem userPuthandlerWrite_returns_iff {pairs : List (CommandRequest × CommandResult)} :
    (∃ msg, userPuthandlerWrite ft devname (pairs.map Prod.fst) (pairs.map Prod.snd) = .ok msg) ↔
      (valueFields ft pairs).length < 100 ∧
        devname.length + (valueFields ft pairs).length + 12 < 2 ^ 32 := by
  simp only [userPuthandlerWrite_eq_ok, Zigbee.userPuthandlerWrite_eq_ok (length_pairs pairs),
    exists_and_right, exists_eq, true_and, zipWith_pairs, valueFields]

/-- `user_add_new_device` composes its command when the counter has three digits at most, and the
name and twice the address take no more room than the profile and the model, up to three bytes. -/
theorem repDevice_eq_ok {rep : RepDiscovery} {addressZigbee : UInt16} :
    repDevice rep addressZigbee = .ok msg ↔
      msg = fields [[UserCmd.addDevice.code], rep.devname, rep.mac, decimal addressZigbee.toNat,
        decimal addressZigbee.toNat] ∧
      addressZigbee < 1000 ∧ repDeviceWritten rep addressZigbee ≤
        (rep.mac.length + rep.profile.length + rep.model.length + 10) % 2 ^ 32 := by
  simp only [repDevice, Checked.bind_eq_ok]
  constructor
  · rintro ⟨_, haddr, htext⟩
    obtain ⟨rfl, hlt⟩ := addrStr_eq_ok.mp haddr
    obtain ⟨rfl, hfits⟩ := Zigbee.repDevice_eq_ok.mp htext
    exact ⟨rfl, hlt, hfits⟩
  · rintro ⟨rfl, haddr, hfits⟩
    exact ⟨_, addrStr_eq_ok.mpr ⟨rfl, haddr⟩, Zigbee.repDevice_eq_ok.mpr ⟨rfl, hfits⟩⟩

theorem repDevice_returns_iff {rep : RepDiscovery} {addressZigbee : UInt16} :
    (∃ text, repDevice rep addressZigbee = .ok text) ↔
      addressZigbee < 1000 ∧ repDeviceWritten rep addressZigbee ≤
        (rep.mac.length + rep.profile.length + rep.model.length + 10) % 2 ^ 32 := by
  simp only [repDevice_eq_ok, exists_eq_left]

end Fits

/-! ## All three -/

/-- Which commands fit their buffers. -/
theorem composed_fit_iff (ft : FloatText) (devname : Text) :
    (∀ requests, (∃ msg, userGethandlerWrite devname requests = .ok msg) ↔
      (fields (requests.map CommandRequest.resname)).length < 100 ∧
        devname.length + (fields (requests.map CommandRequest.resname)).length + 14 < 2 ^ 31) ∧
    (∀ pairs,
      (∃ msg, userPuthandlerWrite ft devname (pairs.map Prod.fst) (pairs.map Prod.snd) = .ok msg) ↔
      (valueFields ft pairs).length < 100 ∧
        devname.length + (valueFields ft pairs).length + 12 < 2 ^ 32) ∧
    ∀ rep addressZigbee, (∃ text, repDevice rep addressZigbee = .ok text) ↔
      addressZigbee < 1000 ∧ repDeviceWritten rep addressZigbee ≤
        (rep.mac.length + rep.profile.length + rep.model.length + 10) % 2 ^ 32 :=
  ⟨fun _ => userGethandlerWrite_returns_iff, fun _ => userPuthandlerWrite_returns_iff,
    fun _ _ => repDevice_returns_iff⟩

/-- Ten resources of one device. -/
def temperatures : List CommandRequest :=
  (List.range 10).map fun i => ⟨lit "Temperature" ++ decimal i, .int32⟩

/-- Their names do not fit, and neither does the command for a device that replies with short names
of its profile and model, whatever the counter is. -/
theorem temperatures_overrun :
    (¬ ∃ msg, userGethandlerWrite (lit "RandomDevice1") temperatures = .ok msg) ∧
      ∀ addressZigbee, ¬ ∃ text,
        repDevice ⟨lit "newdevice", lit "1122", lit "Lamp", lit "1"⟩ addressZigbee = .ok text := by
  constructor
  · rw [userGethandlerWrite_returns_iff]
    decide +kernel
  · intro addressZigbee
    rw [repDevice_returns_iff]
    rintro ⟨-, hfits⟩
    have hdigits : 0 < (decimal addressZigbee.toNat).length :=
      List.length_pos_iff.mpr (decimal_ne_nil _)
    change 9 + 4 + 2 * (decimal addressZigbee.toNat).length + 7 ≤ (4 + 4 + 1 + 10) % 2 ^ 32 at hfits
    omega

end Sized

end Zigbee
