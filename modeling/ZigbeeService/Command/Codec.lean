-- SUMMARY: The device-side decoder of device.py, and when it recovers what the service composed.
import ZigbeeService.Command.Compose
import ZigbeeService.Message.RoundTrip

/-!
# The command codec

The device splits a command at every `#` and a value at its first `:`. The service escapes neither.
The texts are byte strings on both sides: separators are ASCII, so splitting commutes with the
UTF-8 decoding of the device.
-/

namespace Zigbee

open CLib

/-! ## Python -/

/-- The white space that `int` strips. -/
def pyIsspace (c : UInt8) : Bool := isspace c || (28 ≤ c && c ≤ 31)

/-- `int(s)`: a sign and groups of digits between single underscores, or a `ValueError`. -/
def pyInt (s : Text) : Option Int :=
  let s := ((s.dropWhile pyIsspace).reverse.dropWhile pyIsspace).reverse
  let (neg, s) := scanSign s
  let groups := s.splitOn (chr '_')
  if groups.all fun g => g ≠ [] && g.all isdigit then
    let n : Int := digitsValue 10 (scanDigits 10 groups.flatten)
    some (if neg then -n else n)
  else none

/-- A slice bound: negative ones count from the end. -/
def pyIndex (len : Nat) (i : Int) : Nat := if i < 0 then (i + len).toNat else min i.toNat len

/-- `xs[start:stop]`. -/
def pySlice {α : Type} (xs : List α) (start stop : Int) : List α :=
  (xs.take (pyIndex xs.length stop)).drop (pyIndex xs.length start)

/-! ## The functions of device.py -/

/-- What a device makes of a command that is addressed to it. -/
inductive DeviceRequest where
  /-- `device_repget_edgex`: the resources to report. -/
  | get (resnames : List Text)
  /-- `device_repput_edgex`: the resources to set, and the value texts to set them to. -/
  | put (values : List (Text × Text))
  | discovery
  | addDevice (arr : List Text)
  | ignored
  deriving DecidableEq

/-- The split of `set_value`. Without a colon `find` gives -1, which as a bound drops the last
character of the name and keeps the whole text as the value. -/
def setValue (str : Text) : Text × Text :=
  let index := str.idxOf colon
  if index < str.length then (str.take index, str.drop (index + 1)) else (str.dropLast, str)

/-- The fields that both handlers cut out of a command: `arr[4 : 4 + int(arr[3])]`. An index or a
number that does not exist raises an exception. -/
def arrValues (arr : List Text) : Option (List Text) := do
  let size ← pyInt (← arr[3]?)
  some (pySlice arr 4 (4 + size))

def deviceRepgetEdgex (arr : List Text) : Option DeviceRequest := do
  some (.get (← arrValues arr))

def deviceRepputEdgex (arr : List Text) : Option DeviceRequest := do
  some (.put ((← arrValues arr).map setValue))

/-- `receive_proccess_edgex`. The result of its `strip` is not used. -/
def receiveProccessEdgex (myName input : Text) : Option DeviceRequest := do
  let arr := input.splitOn hash
  let name ← arr[1]?
  let cmd ← arr[0]?
  if name = myName then
    if cmd = [UserCmd.get.code] then deviceRepgetEdgex arr
    else if cmd = [UserCmd.put.code] then deviceRepputEdgex arr
    else if cmd = [UserCmd.discovery.code] then some .discovery
    else if cmd = [UserCmd.addDevice.code] then some (.addDevice arr)
    else some .ignored
  else some .ignored

/-! ## Decoding a command -/

theorem setValue_colon {name value : Text} (h : colon ∉ name) :
    setValue (name ++ colon :: value) = (name, value) := by
  have hidx : (name ++ colon :: value).idxOf colon = name.length := by
    rw [List.idxOf_append_of_notMem h, List.idxOf_cons_self, Nat.add_zero]
  simp only [setValue, hidx]
  rw [if_pos (by simp), List.take_left, ← List.drop_drop, List.drop_left]
  rfl

theorem dropWhile_eq_self {p : UInt8 → Bool} {s : Text} (h : ∀ c ∈ s, p c = false) :
    s.dropWhile p = s := by
  cases s with
  | nil => rfl
  | cons c s => rw [List.dropWhile_cons_of_neg (by simp [h c List.mem_cons_self])]

theorem pyIsspace_of_isdigit {c : UInt8} (h : isdigit c = true) : pyIsspace c = false := by
  rw [pyIsspace, isspace_eq_false_of_isdigit h, Bool.false_or]
  simp only [isdigit, Bool.and_eq_true, decide_eq_true_eq, UInt8.le_iff_toNat_le] at h
  simp only [Bool.and_eq_false_iff, decide_eq_false_iff_not, UInt8.le_iff_toNat_le]
  simp only [UInt8.reduceToNat] at *
  omega

/-- The device reads the count back that the service printed. -/
theorem pyInt_decimal (n : Nat) : pyInt (decimal n) = some (n : Int) := by
  have hdigit : ∀ c ∈ decimal n, isdigit c = true := fun c => isdigit_of_mem_decimal
  have hspace : ∀ c ∈ decimal n, pyIsspace c = false := fun c hc =>
    pyIsspace_of_isdigit (hdigit c hc)
  have hstrip : (((decimal n).dropWhile pyIsspace).reverse.dropWhile pyIsspace).reverse =
      decimal n := by
    rw [dropWhile_eq_self hspace, dropWhile_eq_self (fun c hc => hspace c (List.mem_reverse.mp hc)),
      List.reverse_reverse]
  have hsign : scanSign (decimal n) = (false, decimal n) := by
    cases hdec : decimal n with
    | nil => exact absurd hdec (decimal_ne_nil n)
    | cons c s =>
      have hc : isdigit c = true := hdigit c (by simp [hdec])
      have hminus : c ≠ chr '-' := by rintro rfl; exact absurd hc (by decide)
      have hplus : c ≠ chr '+' := by rintro rfl; exact absurd hc (by decide)
      rw [scanSign, if_neg hminus, if_neg hplus]
  have hgroups : (decimal n).splitOn (chr '_') = [decimal n] :=
    List.splitOn_eq_singleton fun h => absurd (hdigit _ h) (by decide)
  obtain ⟨ds, hds, -, hlt, hval⟩ := decimal_eq_map n
  have hscan : digitsValue 10 (scanDigits 10 (decimal n)) = n := by
    rw [hds, scanDigits_map_digitByte hlt, hval]
  have hall : (decimal n).all isdigit = true := List.all_eq_true.mpr hdigit
  simp only [pyInt, hstrip, hsign, hgroups]
  simp [hall, decimal_ne_nil, hscan]

/-- The slice of an array that starts with a header of four fields. -/
theorem pySlice_header {header items rest : List Text} (hheader : header.length = 4) :
    pySlice (header ++ items ++ rest) 4 (4 + items.length) = items := by
  have hstart : pyIndex (header ++ items ++ rest).length 4 = header.length := by
    simp [pyIndex, hheader]
  have hstop : pyIndex (header ++ items ++ rest).length (4 + items.length) =
      (header ++ items).length := by
    rw [pyIndex, if_neg (by omega), List.length_append, List.length_append, hheader]
    omega
  rw [pySlice, hstart, hstop, List.take_left, List.drop_left]

/-- What the device finds in a command whose fields hold no separator. -/
theorem splitOn_command (code : UInt8) {myName : Text} (word : Text) {items : List Text}
    (hcode : hash ≠ code) (hname : hash ∉ myName) (hword : hash ∉ word)
    (hitems : ∀ f ∈ items, hash ∉ f) :
    ∃ arr, (fields ([[code], myName, word, decimal items.length] ++ items)).splitOn hash = arr ∧
      arr[0]? = some [code] ∧ arr[1]? = some myName ∧ arrValues arr = some items := by
  have hheader : ∀ f ∈ [[code], myName, word, decimal items.length], hash ∉ f := by
    simpa [hcode, hname, hword] using (isDecimal_decimal items.length).hash_notMem
  refine ⟨[[code], myName, word, decimal items.length] ++ items ++ [[]],
    splitOn_fields fun f hf => (List.mem_append.mp hf).elim (hheader f) (hitems f), rfl, rfl, ?_⟩
  have hsize : ([[code], myName, word, decimal items.length] ++ items ++ [[]])[3]? =
      some (decimal items.length) := rfl
  simp only [arrValues, hsize, pyInt_decimal, Option.bind_eq_bind, Option.bind_some]
  rw [pySlice_header rfl]

/-- A GET command gives its resource names back. -/
theorem receiveProccessEdgex_get {devname : Text} {requests : List CommandRequest} {msg : Text}
    (hdev : hash ∉ devname) (hres : ∀ req ∈ requests, hash ∉ req.resname)
    (hmsg : userGethandlerWrite devname requests = .ok msg) :
    receiveProccessEdgex devname msg = some (.get (requests.map CommandRequest.resname)) := by
  obtain ⟨rfl, -⟩ := userGethandlerWrite_eq_ok.mp hmsg
  obtain ⟨arr, hsplit, hcmd, hname, hvalues⟩ := splitOn_command UserCmd.get.code (lit "100")
    (by decide) hdev (by decide) (List.forall_mem_map.mpr hres)
  rw [List.length_map] at hsplit
  simp only [receiveProccessEdgex, hsplit, hcmd, hname, deviceRepgetEdgex, hvalues,
    Option.bind_eq_bind, Option.bind_some, if_true]

/-- The resources and value texts of a PUT request. -/
def putPairs (ft : FloatText) (requests : List CommandRequest) (values : List CommandResult) :
    List (Text × Text) :=
  List.zipWith (fun req value => (req.resname, edgexValueTostring ft value true)) requests values

theorem map_setValue_valueField {ft : FloatText} {requests : List CommandRequest}
    {values : List CommandResult} (hres : ∀ req ∈ requests, colon ∉ req.resname) :
    (List.zipWith (valueField ft) requests values).map setValue = putPairs ft requests values := by
  induction requests generalizing values with
  | nil => rfl
  | cons req requests ih =>
    cases values with
    | nil => rfl
    | cons value values =>
      rw [List.forall_mem_cons] at hres
      simp only [List.zipWith_cons_cons, List.map_cons, putPairs]
      rw [valueField, setValue_colon hres.1, ih hres.2]
      rfl

/-- The values of a zip are those of its second list, when the first is long enough. -/
theorem mem_putPairs {ft : FloatText} {requests : List CommandRequest}
    {values : List CommandResult} (hlen : requests.length = values.length) {text : Text} :
    (∃ pair ∈ putPairs ft requests values, pair.2 = text) ↔
      ∃ value ∈ values, edgexValueTostring ft value true = text := by
  have hsnd : (putPairs ft requests values).map Prod.snd =
      values.map (edgexValueTostring ft · true) := by
    rw [putPairs, List.map_zipWith]
    induction requests generalizing values with
    | nil => rw [List.length_eq_zero_iff.mp hlen.symm]; rfl
    | cons req requests ih =>
      cases values with
      | nil => cases hlen
      | cons value values =>
        rw [List.zipWith_cons_cons, List.map_cons, ih (by simpa using hlen)]
  rw [← List.mem_map, hsnd, List.mem_map]

/-- A PUT command whose value texts hold no separator gives its values back. -/
theorem receiveProccessEdgex_put {ft : FloatText} {devname : Text}
    {requests : List CommandRequest} {values : List CommandResult} {msg : Text}
    (hdev : hash ∉ devname) (hres : ∀ req ∈ requests, hash ∉ req.resname ∧ colon ∉ req.resname)
    (hlen : requests.length = values.length)
    (hvalues : ∀ value ∈ values, hash ∉ edgexValueTostring ft value true)
    (hmsg : userPuthandlerWrite ft devname requests values = .ok msg) :
    receiveProccessEdgex devname msg = some (.put (putPairs ft requests values)) := by
  obtain ⟨rfl, -⟩ := (userPuthandlerWrite_eq_ok hlen).mp hmsg
  have hitems : ∀ f ∈ List.zipWith (valueField ft) requests values, hash ∉ f := by
    intro f hf
    rw [← List.map_uncurry_zip_eq_zipWith, List.mem_map] at hf
    obtain ⟨⟨req, value⟩, hmem, rfl⟩ := hf
    obtain ⟨hreq, hvalue⟩ := List.of_mem_zip hmem
    simp only [Function.uncurry_apply_pair, valueField, List.mem_append, List.mem_cons, not_or]
    exact ⟨(hres req hreq).1, by decide, hvalues value hvalue⟩
  obtain ⟨arr, hsplit, hcmd, hname, harr⟩ := splitOn_command UserCmd.put.code (lit "0")
    (by decide) hdev (by decide) hitems
  have hcount : (List.zipWith (valueField ft) requests values).length = requests.length := by
    simp [hlen]
  have hnotget : ¬ [UserCmd.put.code] = [UserCmd.get.code] := by decide
  rw [hcount] at hsplit
  simp only [receiveProccessEdgex, hsplit, hcmd, hname, deviceRepputEdgex, harr, if_neg hnotget,
    map_setValue_valueField fun req hreq => (hres req hreq).2, Option.bind_eq_bind,
    Option.bind_some, if_true]

/-- No value text that a device reads off a command holds a separator. -/
theorem hash_notMem_of_receive_put {myName input : Text} {pairs : List (Text × Text)}
    (h : receiveProccessEdgex myName input = some (.put pairs)) :
    ∀ pair ∈ pairs, hash ∉ pair.2 := by
  have hput : deviceRepputEdgex (input.splitOn hash) = some (.put pairs) := by
    simp only [receiveProccessEdgex, Option.bind_eq_bind, Option.bind_eq_some_iff] at h
    obtain ⟨name, -, cmd, -, h⟩ := h
    split at h
    case isFalse => cases h
    split at h
    · simp only [deviceRepgetEdgex, Option.bind_eq_bind, Option.bind_eq_some_iff] at h
      obtain ⟨_, -, h⟩ := h
      cases h
    · repeat' split at h
      · exact h
      all_goals cases h
  simp only [deviceRepputEdgex, arrValues, Option.bind_eq_bind, Option.bind_eq_some_iff] at hput
  obtain ⟨values, ⟨size, -, n, -, hslice⟩, hpairs⟩ := hput
  cases hslice
  cases hpairs
  intro pair hpair
  obtain ⟨piece, hpiece, rfl⟩ := List.mem_map.mp hpair
  have hnot : hash ∉ piece :=
    notMem_of_mem_splitOn (List.mem_of_mem_take (List.mem_of_mem_drop hpiece))
  unfold setValue
  dsimp only
  split
  · exact fun hmem => hnot (List.mem_of_mem_drop hmem)
  · exact hnot

/-! ## Agreement -/

/-- What is composed for a request is decoded to that request. -/
structure CodecAgrees (ft : FloatText) (devname : Text) (requests : List CommandRequest)
    (values : List CommandResult) : Prop where
  put : ∀ msg, userPuthandlerWrite ft devname requests values = .ok msg →
    receiveProccessEdgex devname msg = some (.put (putPairs ft requests values))
  get : ∀ msg, userGethandlerWrite devname requests = .ok msg →
    receiveProccessEdgex devname msg = some (.get (requests.map CommandRequest.resname))

/-- Service and device agree on a request exactly when no value of it is a String with a `#`. -/
theorem codecAgrees_iff {ft : FloatText} {devname : Text} {requests : List CommandRequest}
    {values : List CommandResult} (hdev : hash ∉ devname)
    (hres : ∀ req ∈ requests, hash ∉ req.resname ∧ colon ∉ req.resname)
    (hlen : requests.length = values.length)
    (hfits : ∃ msg, userPuthandlerWrite ft devname requests values = .ok msg) :
    CodecAgrees ft devname requests values ↔
      ∀ value ∈ values, ¬ (value.type = .string ∧ hash ∈ value.value.string) := by
  constructor
  · intro hagree value hvalue hstring
    obtain ⟨msg, hmsg⟩ := hfits
    have hpairs := hash_notMem_of_receive_put (hagree.put msg hmsg)
    obtain ⟨pair, hpair, htext⟩ := (mem_putPairs hlen).mpr ⟨value, hvalue, rfl⟩
    exact hpairs pair hpair (htext ▸ hash_mem_edgexValueTostring.mpr hstring)
  · intro hvalues
    exact
      { put := fun msg hmsg => receiveProccessEdgex_put hdev hres hlen
          (fun value hvalue hmem => hvalues value hvalue (hash_mem_edgexValueTostring.mp hmem)) hmsg
        get := fun msg hmsg => receiveProccessEdgex_get hdev (fun req hreq => (hres req hreq).1) hmsg }

/-- The switch of the demo device. -/
theorem codecAgrees_iff_switch :
    CodecAgrees FloatText.empty (lit "RandomDevice1") [⟨lit "Switch", .bool⟩]
      [⟨0, .bool, ⟨1, [], []⟩⟩] :=
  (codecAgrees_iff (by decide) (by decide) rfl
    ⟨lit "c#RandomDevice1#0#1#Switch:true#", by decide⟩).mpr (by decide)

/-- The String `a#b` reaches the device as `a`. -/
theorem receiveProccessEdgex_string_hash :
    let requests : List CommandRequest := [⟨lit "Label", .string⟩]
    let values : List CommandResult := [⟨0, .string, ⟨0, lit "a#b", []⟩⟩]
    userPuthandlerWrite FloatText.empty (lit "RandomDevice1") requests values =
        .ok (lit "c#RandomDevice1#0#1#Label:a#b#") ∧
      receiveProccessEdgex (lit "RandomDevice1") (lit "c#RandomDevice1#0#1#Label:a#b#") =
        some (.put [(lit "Label", lit "a")]) ∧
      ¬ CodecAgrees FloatText.empty (lit "RandomDevice1") requests values := by
  intro requests values
  have hmsg : userPuthandlerWrite FloatText.empty (lit "RandomDevice1") requests values =
      .ok (lit "c#RandomDevice1#0#1#Label:a#b#") := by decide
  refine ⟨hmsg, by decide, fun h => ?_⟩
  exact absurd (h.put _ hmsg) (by decide)

end Zigbee
