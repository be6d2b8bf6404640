-- SUMMARY: The demo device of device.py under the service's commands: a GET reads the last PUT.
import ZigbeeService.Command.Sizes
import ZigbeeService.Driver.Answers
import ZigbeeService.Message.Counts
import ZigbeeService.Sdk.ValueText

/-!
# The demo device

The device takes the commands off its buffer one by one. An `IndexError` drops the command, any
other exception ends the thread. To the service the device is a register: it has a name, which a
`CMD_ADD_DEVICE` changes, and the switch holds what was PUT last under this name.
-/

namespace Zigbee

open CLib

/-! ## The functions of device.py -/

/-- The globals that change, and how many random numbers were drawn. -/
structure DemoDevice where
  myName : Text
  addrZigbee : Option Text
  switchValue : Text
  draws : Nat
  deriving DecidableEq

/-- What Python raises. -/
inductive PyError where
  | indexError
  | valueError
  deriving DecidableEq

namespace DemoDevice

def MAC : Text := lit "29081997"
def PROFILE : Text := lit "ExampleSensor"
def MODEL : Text := lit "BKHN"

/-- The device as it is started, under a name of its own or as `newdevice`. -/
def start (myName : Text) : DemoDevice := ⟨myName, none, lit "false", 0⟩

def draw (d : DemoDevice) : DemoDevice := { d with draws := d.draws + 1 }

/-- `set_value`, with its split done. -/
def setValue (d : DemoDevice) (pair : Text × Text) : DemoDevice :=
  if pair.1 = lit "Switch" then { d with switchValue := pair.2 } else d

/-- `set_arr_values`. -/
def setArrValues (d : DemoDevice) (arr : List Text) : DemoDevice :=
  (arr.map Zigbee.setValue).foldl setValue d

/-- `arr[4 : 4 + int(arr[3])]`, with the text of the size. -/
def sizeAndValues (arr : List Text) : Except PyError (Text × List Text) :=
  match arr[3]? with
  | none => .error .indexError
  | some size =>
    match pyInt size with
    | none => .error .valueError
    | some n => .ok (size, pySlice arr 4 (4 + n))

section

-- `randint k a b` is the `k`-th call of `random.randint`.
variable (randint : Nat → Nat → Nat → Nat)

/-- `get_value`. -/
def getValue (d : DemoDevice) (strRes : Text) : Text × DemoDevice :=
  if strRes = lit "SensorOne" then (decimal (randint d.draws 30 40), d.draw)
  else if strRes = lit "SensorTwo" then (decimal (randint d.draws 70 100), d.draw)
  else if strRes = lit "Switch" then (d.switchValue, d)
  else ([], d)

/-- The loop of `get_arr_value`: one empty value makes the whole result empty. -/
def getArrValue (d : DemoDevice) : List Text → Text → Text × DemoDevice
  | [], strValues => (strValues, d)
  | x :: xs, strValues =>
    let (value, d) := d.getValue randint x
    if value ≠ [] then d.getArrValue xs (strValues ++ value ++ [hash]) else ([], d)

/-- `device_repget_edgex`: what it publishes. -/
def repgetEdgex (d : DemoDevice) (arr : List Text) : Except PyError (Option Text) × DemoDevice :=
  let origin := decimal (randint d.draws 0 100)
  let d := d.draw
  match sizeAndValues arr with
  | .error e => (.error e, d)
  | .ok (size, arrValues) =>
    let (strValues, d) := d.getArrValue randint arrValues []
    if strValues = [] then (.ok none, d)
    else
      (.ok (some (fields [[UserCmd.get.code], d.myName, origin, lit "repget", size, valueWord] ++
        strValues ++ lit "\n")), d)

/-- `device_repput_edgex`. -/
def repputEdgex (d : DemoDevice) (arr : List Text) : Except PyError (Option Text) × DemoDevice :=
  match sizeAndValues arr with
  | .error e => (.error e, d)
  | .ok (_, arrValues) => (.ok none, d.setArrValues arrValues)

/-- `device_repdiscovery`. -/
def repdiscovery (d : DemoDevice) : Text :=
  fields [[UserCmd.discovery.code], d.myName, MAC, PROFILE, MODEL] ++ lit "\n"

/-- `device_repadd_device`. The name is taken before the address is looked at. -/
def repaddDevice (d : DemoDevice) (arr : List Text) :
    Except PyError (Option Text) × DemoDevice :=
  match arr[2]? with
  | none => (.error .indexError, d)
  | some mac =>
    if mac = MAC then
      match arr[3]? with
      | none => (.error .indexError, d)
      | some name =>
        let d := { d with myName := name }
        match arr[4]? with
        | none => (.error .indexError, d)
        | some addr => (.ok none, { d with addrZigbee := some addr })
    else (.ok none, d)

/-- `receive_proccess_edgex`: what it publishes. -/
def receive (d : DemoDevice) (input : Text) : Except PyError (Option Text) × DemoDevice :=
  let arr := input.splitOn hash
  match arr[0]?, arr[1]? with
  | some cmd, some name =>
    if name = d.myName then
      if cmd = [UserCmd.get.code] then d.repgetEdgex randint arr
      else if cmd = [UserCmd.put.code] then d.repputEdgex arr
      else if cmd = [UserCmd.discovery.code] then (.ok (some d.repdiscovery), d)
      else if cmd = [UserCmd.addDevice.code] then d.repaddDevice arr
      else (.ok none, d)
    else (.ok none, d)
  | _, _ => (.error .indexError, d)

/-- `th_process` on the commands of its buffer: what is published, and the device, unless an
exception has ended the thread. -/
def process (d : DemoDevice) : List Text → List Text × Option DemoDevice
  | [] => ([], some d)
  | data :: buf =>
    match d.receive randint data with
    | (.ok published, d) =>
      let (rest, d) := d.process buf
      (published.toList ++ rest, d)
    | (.error .indexError, d) => d.process buf
    | (.error .valueError, _) => ([], none)

end

end DemoDevice

/-! ## The commands of the service -/

/-- What the service sends to the devices. -/
inductive ServiceCommand where
  /-- `random_get_handler` -/
  | get (devname : Text) (requests : List CommandRequest)
  /-- `random_put_handler` -/
  | put (devname : Text) (requests : List CommandRequest) (values : List CommandResult)
  /-- `random_discover` -/
  | discover
  /-- `user_add_new_device` -/
  | addDevice (rep : RepDiscovery) (addressZigbee : UInt16)

namespace ServiceCommand

def compose (ft : FloatText) : ServiceCommand → Checked Text
  | get devname requests => userGethandlerWrite devname requests
  | put devname requests values => userPuthandlerWrite ft devname requests values
  | discover => .ok (lit "d#newdevice#")
  | addDevice rep addressZigbee => Sized.repDevice rep addressZigbee

/-- Nothing in the command is taken for a separator. -/
def Clean : ServiceCommand → Prop
  | get devname requests => hash ∉ devname ∧ ∀ req ∈ requests, hash ∉ req.resname
  | put devname requests values => hash ∉ devname ∧
      (∀ req ∈ requests, hash ∉ req.resname ∧ colon ∉ req.resname) ∧
      requests.length = values.length ∧
      ∀ value ∈ values, ¬ (value.type = .string ∧ hash ∈ value.value.string)
  | discover => True
  | addDevice rep _ => hash ∉ rep.devname ∧ hash ∉ rep.mac

instance : ∀ c : ServiceCommand, Decidable c.Clean
  | get _ _ | put _ _ _ | addDevice _ _ => inferInstanceAs (Decidable (_ ∧ _))
  | discover => inferInstanceAs (Decidable True)

end ServiceCommand

/-! ## The register -/

/-- A device as the service sees it: its name, and the value that was PUT to its switch last. -/
structure SwitchRegister where
  name : Text
  value : Option CommandResult

namespace SwitchRegister

/-- The values of a request, one after the other. -/
def write (value : Option CommandResult) (requests : List CommandRequest)
    (values : List CommandResult) : Option CommandResult :=
  (requests.zip values).foldl
    (fun value p => if p.1.resname = lit "Switch" then some p.2 else value) value

def step (r : SwitchRegister) : ServiceCommand → SwitchRegister
  | .put devname requests values =>
    if devname = r.name then { r with value := write r.value requests values } else r
  | .addDevice rep addressZigbee =>
    if rep.devname = r.name ∧ rep.mac = DemoDevice.MAC then
      { r with name := decimal addressZigbee.toNat }
    else r
  | .get _ _ | .discover => r

end SwitchRegister

/-! ## What a device publishes -/

namespace DemoDevice

variable {ft : FloatText} {randint : Nat → Nat → Nat → Nat} {d : DemoDevice}

/-- `random.randint` stays within its bounds. -/
def Within (randint : Nat → Nat → Nat → Nat) : Prop :=
  ∀ k a b, a ≤ b → a ≤ randint k a b ∧ randint k a b ≤ b

/-- What the device shows for a resource while the switch has this text. -/
inductive Shows (switchValue strRes value : Text) : Prop where
  | sensorOne {n : Nat} (hres : strRes = lit "SensorOne") (hvalue : value = decimal n)
      (hlow : 30 ≤ n) (hhigh : n ≤ 40)
  | sensorTwo {n : Nat} (hres : strRes = lit "SensorTwo") (hvalue : value = decimal n)
      (hlow : 70 ≤ n) (hhigh : n ≤ 100)
  | switch (hres : strRes = lit "Switch") (hvalue : value = switchValue)

/-- The resources of the device. -/
def resources : List Text := [lit "SensorOne", lit "SensorTwo", lit "Switch"]

theorem getValue_shows (hrand : Within randint) {x : Text} (hx : x ∈ resources) :
    Shows d.switchValue x (d.getValue randint x).1 ∧
      ∃ k, (d.getValue randint x).2 = { d with draws := k } := by
  simp only [resources, List.mem_cons, List.not_mem_nil, or_false] at hx
  rcases hx with rfl | rfl | rfl
  · have h := hrand d.draws 30 40 (by decide)
    exact ⟨.sensorOne rfl rfl h.1 h.2, _, rfl⟩
  · have h := hrand d.draws 70 100 (by decide)
    exact ⟨.sensorTwo rfl rfl h.1 h.2, _, rfl⟩
  · exact ⟨.switch rfl rfl, d.draws, rfl⟩

theorem Shows.ne_nil {switchValue x value : Text} (h : Shows switchValue x value)
    (hswitch : switchValue ≠ []) : value ≠ [] := by
  cases h with
  | sensorOne hres hvalue | sensorTwo hres hvalue => exact hvalue ▸ decimal_ne_nil _
  | switch hres hvalue => exact hvalue ▸ hswitch

theorem getArrValue_shows (hrand : Within randint) :
    ∀ {xs : List Text} (d : DemoDevice) (strValues : Text), d.switchValue ≠ [] →
      (∀ x ∈ xs, x ∈ resources) →
        ∃ values k, d.getArrValue randint xs strValues =
            (strValues ++ fields values, { d with draws := k }) ∧
          List.Forall₂ (Shows d.switchValue) xs values
  | [], d, strValues, _, _ => ⟨[], d.draws, by simp [getArrValue], .nil⟩
  | x :: xs, d, strValues, hswitch, hxs => by
    rw [List.forall_mem_cons] at hxs
    obtain ⟨hshows, k, hk⟩ := getValue_shows (d := d) hrand hxs.1
    obtain ⟨values, k', hvalues, hall⟩ := getArrValue_shows hrand { d with draws := k }
      (strValues ++ (d.getValue randint x).1 ++ [hash]) hswitch hxs.2
    refine ⟨(d.getValue randint x).1 :: values, k', ?_, .cons hshows hall⟩
    rw [getArrValue]
    dsimp only
    rw [if_pos (hshows.ne_nil hswitch), hk, hvalues]
    simp

/-! ## Taking a command -/

theorem sizeAndValues_command (code : UInt8) (name word : Text) (items : List Text) :
    sizeAndValues ([[code], name, word, decimal items.length] ++ items ++ [[]]) =
      .ok (decimal items.length, items) := by
  have hsize : ([[code], name, word, decimal items.length] ++ items ++ [[]])[3]? =
      some (decimal items.length) := rfl
  simp only [sizeAndValues, hsize, pyInt_decimal]
  rw [pySlice_header rfl]

/-- A command of four fields and its items is split into these. -/
theorem splitOn_items (code : UInt8) {name word : Text} {items : List Text} (hcode : hash ≠ code)
    (hname : hash ∉ name) (hword : hash ∉ word) (hitems : ∀ f ∈ items, hash ∉ f) :
    (fields ([[code], name, word, decimal items.length] ++ items)).splitOn hash =
      [[code], name, word, decimal items.length] ++ items ++ [[]] := by
  have hheader : ∀ f ∈ [[code], name, word, decimal items.length], hash ∉ f := by
    simpa [hcode, hname, hword] using (isDecimal_decimal items.length).hash_notMem
  exact splitOn_fields fun f hf => (List.mem_append.mp hf).elim (hheader f) (hitems f)

/-- A command to somebody else changes nothing. -/
theorem receive_other (code : UInt8) {name : Text} (rest : Text) (hcode : hash ≠ code)
    (hname : hash ∉ name) (hother : name ≠ d.myName) :
    d.receive randint (fields [[code], name] ++ rest) = (.ok none, d) := by
  have hsplit : (fields [[code], name] ++ rest).splitOn hash =
      [code] :: name :: rest.splitOn hash := by
    simp only [fields_cons, fields_nil, List.append_assoc, List.cons_append, List.nil_append]
    rw [splitOn_code _ hcode, List.splitOn_append_cons_self_of_not_mem hname]
  simp only [receive, hsplit, List.getElem?_cons_zero, List.getElem?_cons_succ]
  rw [if_neg hother]

theorem receive_other_fields (code : UInt8) {name : Text} (items : List Text) (hcode : hash ≠ code)
    (hname : hash ∉ name) (hother : name ≠ d.myName) :
    d.receive randint (fields ([code] :: name :: items)) = (.ok none, d) := by
  have hsplit : fields ([code] :: name :: items) = fields [[code], name] ++ fields items := by simp
  rw [hsplit, receive_other code _ hcode hname hother]

/-- Showing values draws numbers and changes nothing else. -/
theorem getArrValue_frame (randint : Nat → Nat → Nat → Nat) :
    ∀ (xs : List Text) (d : DemoDevice) (strValues : Text),
    ∃ k, (d.getArrValue randint xs strValues).2 = { d with draws := k }
  | [], d, _ => ⟨d.draws, rfl⟩
  | x :: xs, d, strValues => by
    obtain ⟨k, hk⟩ : ∃ k, (d.getValue randint x).2 = { d with draws := k } := by
      unfold getValue
      split_ifs
      · exact ⟨_, rfl⟩
      · exact ⟨_, rfl⟩
      · exact ⟨d.draws, rfl⟩
      · exact ⟨d.draws, rfl⟩
    rw [getArrValue]
    dsimp only
    rw [hk]
    split_ifs
    · exact getArrValue_frame randint xs _ _
    · exact ⟨k, rfl⟩

theorem receive_get (randint : Nat → Nat → Nat → Nat) {requests : List CommandRequest}
    (hdev : hash ∉ d.myName) (hreqs : ∀ req ∈ requests, hash ∉ req.resname) :
    d.receive randint (fields ([[UserCmd.get.code], d.myName, lit "100",
        decimal requests.length] ++ requests.map CommandRequest.resname)) =
      d.repgetEdgex randint ([[UserCmd.get.code], d.myName, lit "100",
        decimal (requests.map CommandRequest.resname).length] ++
          requests.map CommandRequest.resname ++ [[]]) := by
  have hsplit := splitOn_items UserCmd.get.code (by decide) hdev (by decide : hash ∉ lit "100")
    (List.forall_mem_map.mpr hreqs)
  rw [List.length_map] at hsplit ⊢
  simp only [receive, hsplit]
  exact if_pos rfl

/-- A GET leaves the name and the switch alone, whatever it asks for. -/
theorem repgetEdgex_frame (randint : Nat → Nat → Nat → Nat) (d : DemoDevice) (code : UInt8)
    (name word : Text) (items : List Text) :
    ∃ published k, d.repgetEdgex randint
        ([[code], name, word, decimal items.length] ++ items ++ [[]]) =
      (.ok published, { d with draws := k }) := by
  rw [repgetEdgex, sizeAndValues_command]
  dsimp only
  obtain ⟨k, hk⟩ := getArrValue_frame randint items d.draw []
  split_ifs
  · exact ⟨none, k, by rw [hk]; rfl⟩
  · exact ⟨_, k, by rw [hk]; rfl⟩

/-- A GET of resources that the device has is answered, with what it shows for each of them. -/
theorem repgetEdgex_reply (hrand : Within randint) (hswitch : d.switchValue ≠ []) (code : UInt8)
    (name word : Text) {items : List Text} (hitems : ∀ x ∈ items, x ∈ resources)
    (hne : items ≠ []) (tag : Nat) :
    ∃ (reply : Reply) (k : Nat), d.repgetEdgex randint
        ([[code], name, word, decimal items.length] ++ items ++ [[]]) =
          (.ok (some (lit "b#" ++ repgetMessage reply)), { d with draws := k }) ∧
      reply.command = tag ∧ reply.dev = d.myName ∧ reply.origin ≤ 100 ∧
      List.Forall₂ (Shows d.switchValue) items reply.values := by
  obtain ⟨values, k, hvalues, hall⟩ := getArrValue_shows hrand d.draw [] hswitch hitems
  refine ⟨⟨tag, d.myName, randint d.draws 0 100, values⟩, k, ?_, rfl, rfl,
    (hrand d.draws 0 100 (Nat.zero_le _)).2, hall⟩
  have hlen := hall.length_eq
  obtain ⟨value, rest, rfl⟩ : ∃ value rest, values = value :: rest := by
    cases hall with
    | nil => exact absurd rfl hne
    | cons => exact ⟨_, _, rfl⟩
  rw [repgetEdgex, sizeAndValues_command]
  dsimp only
  rw [hvalues, if_neg (by simp), hlen]
  have hb : [UserCmd.get.code] ++ [hash] = lit "b#" := by decide
  simp only [repgetMessage, eventMessage, ← hb, fields_append, fields_cons, fields_nil, draw]
  simp

/-! ## The device as a register -/

/-- A value text that a command can carry. -/
def Carried (text : Text) : Prop := text.length < 100 ∧ hash ∉ text

/-- The device has the name of the register, and the switch has the text of its value. -/
structure Holds (ft : FloatText) (d : DemoDevice) (r : SwitchRegister) : Prop where
  name : d.myName = r.name
  value : ∀ v, r.value = some v → d.switchValue = edgexValueTostring ft v true
  carried : ∀ v, r.value = some v → Carried (edgexValueTostring ft v true)

variable {r : SwitchRegister}

theorem Holds.draws (h : d.Holds ft r) (k : Nat) : { d with draws := k }.Holds ft r :=
  ⟨h.name, h.value, h.carried⟩

/-- The device stores the values of a request as the register does. -/
theorem Holds.write : ∀ {requests : List CommandRequest} {values : List CommandResult}
    {d : DemoDevice} {r : SwitchRegister}, d.Holds ft r →
      (∀ pair ∈ putPairs ft requests values, Carried pair.2) →
        ((putPairs ft requests values).foldl setValue d).Holds ft
          { r with value := SwitchRegister.write r.value requests values }
  | [], _, _, _, h, _ => h
  | _ :: _, [], _, _, h, _ => h
  | req :: requests, value :: values, d, r, h, hcarried => by
    rw [putPairs, List.zipWith_cons_cons, List.forall_mem_cons] at hcarried
    have hhead : (d.setValue (req.resname, edgexValueTostring ft value true)).Holds ft
        { r with value := if req.resname = lit "Switch" then some value else r.value } := by
      unfold setValue
      by_cases hreq : req.resname = lit "Switch"
      · rw [if_pos hreq, if_pos hreq]
        exact ⟨h.name, fun v hv => by cases hv; rfl, fun v hv => by cases hv; exact hcarried.1⟩
      · rw [if_neg hreq, if_neg hreq]
        exact h
    have hrest := Holds.write hhead hcarried.2
    exact hrest

theorem length_le_of_mem_fields {fs : List Text} {f : Text} (h : f ∈ fs) :
    f.length ≤ (fields fs).length := by
  induction fs with
  | nil => cases h
  | cons g fs ih =>
    rw [fields_cons, List.length_append, List.length_cons]
    rcases List.mem_cons.mp h with rfl | hmem
    · exact Nat.le_add_right _ _
    · have := ih hmem
      omega

/-- What is PUT fits the buffer of the driver. -/
theorem putPairs_carried {requests : List CommandRequest} {values : List CommandResult}
    (hfit : (fields (List.zipWith (valueField ft) requests values)).length < 100)
    (hvalues : ∀ value ∈ values, ¬ (value.type = .string ∧ hash ∈ value.value.string)) :
    ∀ pair ∈ putPairs ft requests values, Carried pair.2 := by
  intro pair hpair
  rw [putPairs, ← List.map_uncurry_zip_eq_zipWith, List.mem_map] at hpair
  obtain ⟨⟨req, value⟩, hmem, rfl⟩ := hpair
  have hfield : valueField ft req value ∈ List.zipWith (valueField ft) requests values := by
    rw [← List.map_uncurry_zip_eq_zipWith, List.mem_map]
    exact ⟨(req, value), hmem, rfl⟩
  have hle := length_le_of_mem_fields hfield
  simp only [valueField, List.length_append, List.length_cons] at hle
  exact ⟨by simp only [Function.uncurry_apply_pair]; omega, fun hhash =>
    hvalues value (List.of_mem_zip hmem).2 (hash_mem_edgexValueTostring.mp hhash)⟩

theorem receive_put {requests : List CommandRequest} {values : List CommandResult}
    (hdev : hash ∉ d.myName) (hreqs : ∀ req ∈ requests, hash ∉ req.resname ∧ colon ∉ req.resname)
    (hlen : requests.length = values.length)
    (hvalues : ∀ value ∈ values, ¬ (value.type = .string ∧ hash ∈ value.value.string)) :
    d.receive randint (fields ([[UserCmd.put.code], d.myName, lit "0", decimal requests.length] ++
        List.zipWith (valueField ft) requests values)) =
      (.ok none, (putPairs ft requests values).foldl setValue d) := by
  have hitems : ∀ f ∈ List.zipWith (valueField ft) requests values, hash ∉ f := by
    intro f hf
    rw [← List.map_uncurry_zip_eq_zipWith, List.mem_map] at hf
    obtain ⟨⟨req, value⟩, hmem, rfl⟩ := hf
    obtain ⟨hreq, hvalue⟩ := List.of_mem_zip hmem
    simp only [Function.uncurry_apply_pair, valueField, List.mem_append, List.mem_cons, not_or]
    exact ⟨(hreqs req hreq).1, by decide,
      fun hhash => hvalues value hvalue (hash_mem_edgexValueTostring.mp hhash)⟩
  have hcount : (List.zipWith (valueField ft) requests values).length = requests.length := by
    simp [hlen]
  have hsplit := splitOn_items UserCmd.put.code (by decide) hdev (by decide : hash ∉ lit "0") hitems
  have hsize := sizeAndValues_command UserCmd.put.code d.myName (lit "0")
    (List.zipWith (valueField ft) requests values)
  have hput : d.receive randint (fields ([[UserCmd.put.code], d.myName, lit "0",
      decimal (List.zipWith (valueField ft) requests values).length] ++
        List.zipWith (valueField ft) requests values)) =
      d.repputEdgex ([[UserCmd.put.code], d.myName, lit "0",
        decimal (List.zipWith (valueField ft) requests values).length] ++
          List.zipWith (valueField ft) requests values ++ [[]]) := by
    simp only [receive, hsplit]
    exact if_pos rfl
  rw [← hcount, hput, repputEdgex, hsize]
  dsimp only
  rw [setArrValues, map_setValue_valueField fun req hreq => (hreqs req hreq).2]

/-- A GET changes nothing but the number of draws. -/
theorem Holds.step_get (randint : Nat → Nat → Nat → Nat) {devname : Text}
    {requests : List CommandRequest} {msg : Text} (h : d.Holds ft r)
    (hc : (ServiceCommand.get devname requests).Clean)
    (hmsg : (ServiceCommand.get devname requests).compose ft = .ok msg) :
    ∃ published d', d.receive randint msg = (.ok published, d') ∧
      d'.Holds ft (r.step (.get devname requests)) := by
  obtain ⟨rfl, -⟩ := userGethandlerWrite_eq_ok.mp hmsg
  by_cases hdev : devname = d.myName
  · subst hdev
    rw [receive_get randint hc.1 hc.2]
    obtain ⟨published, k, hk⟩ := repgetEdgex_frame randint d
      UserCmd.get.code d.myName (lit "100") (requests.map CommandRequest.resname)
    exact ⟨published, _, hk, h.draws k⟩
  · exact ⟨none, d, receive_other_fields _ _ (by decide) hc.1 hdev, h⟩

/-- A PUT to the name of the device is written. -/
theorem Holds.step_put (randint : Nat → Nat → Nat → Nat) {devname : Text}
    {requests : List CommandRequest} {values : List CommandResult} {msg : Text} (h : d.Holds ft r)
    (hc : (ServiceCommand.put devname requests values).Clean)
    (hmsg : (ServiceCommand.put devname requests values).compose ft = .ok msg) :
    ∃ published d', d.receive randint msg = (.ok published, d') ∧
      d'.Holds ft (r.step (.put devname requests values)) := by
  obtain ⟨hname, hreqs, hlen, hvalues⟩ := hc
  obtain ⟨rfl, hfit⟩ := (userPuthandlerWrite_eq_ok hlen).mp hmsg
  by_cases hdev : devname = d.myName
  · subst hdev
    rw [receive_put hname hreqs hlen hvalues, SwitchRegister.step, if_pos h.name]
    exact ⟨none, _, rfl, h.write (putPairs_carried hfit hvalues)⟩
  · rw [SwitchRegister.step, if_neg (h.name ▸ hdev)]
    exact ⟨none, d, receive_other_fields _ _ (by decide) hname hdev, h⟩

/-- A discovery changes nothing. -/
theorem Holds.step_discover (randint : Nat → Nat → Nat → Nat) {msg : Text}
    (h : d.Holds ft r) (hmsg : ServiceCommand.discover.compose ft = .ok msg) :
    ∃ published d', d.receive randint msg = (.ok published, d') ∧
      d'.Holds ft (r.step .discover) := by
  cases hmsg
  have hmsg : lit "d#newdevice#" = fields [[UserCmd.discovery.code], lit "newdevice"] ++ [] := by
    decide
  rw [hmsg]
  by_cases hdev : lit "newdevice" = d.myName
  · have hsplit : (fields [[UserCmd.discovery.code], lit "newdevice"] ++ []).splitOn hash =
        [[UserCmd.discovery.code], lit "newdevice", []] := by decide
    refine ⟨some d.repdiscovery, d, ?_, h⟩
    simp only [receive, hsplit]
    exact if_pos hdev
  · exact ⟨none, d, receive_other _ _ (by decide) (by decide) hdev, h⟩

/-- A device takes the name that comes with its MAC address. -/
theorem Holds.step_addDevice (randint : Nat → Nat → Nat → Nat) {rep : RepDiscovery}
    {addressZigbee : UInt16} {msg : Text} (h : d.Holds ft r)
    (hc : (ServiceCommand.addDevice rep addressZigbee).Clean)
    (hmsg : (ServiceCommand.addDevice rep addressZigbee).compose ft = .ok msg) :
    ∃ published d', d.receive randint msg = (.ok published, d') ∧
      d'.Holds ft (r.step (.addDevice rep addressZigbee)) := by
  obtain ⟨rfl, -, -⟩ := Sized.repDevice_eq_ok.mp hmsg
  obtain ⟨hname, hmac⟩ := hc
  have haddr := hash_notMem_decimal addressZigbee.toNat
  simp only [SwitchRegister.step]
  generalize decimal addressZigbee.toNat = addr at *
  by_cases hdev : rep.devname = d.myName
  · have hsplit : (fields [[UserCmd.addDevice.code], rep.devname, rep.mac, addr, addr]).splitOn
        hash = [[UserCmd.addDevice.code], rep.devname, rep.mac, addr, addr, []] :=
      splitOn_fields (by simpa using ⟨by decide, hname, hmac, haddr⟩)
    have hreceive : d.receive randint (fields [[UserCmd.addDevice.code], rep.devname, rep.mac,
        addr, addr]) = if rep.mac = MAC then
          (.ok none, { d with myName := addr, addrZigbee := some addr }) else (.ok none, d) := by
      simp only [receive, hsplit]
      exact if_pos hdev
    rw [hreceive]
    by_cases hown : rep.mac = MAC
    · rw [if_pos hown, if_pos ⟨hdev.trans h.name, hown⟩]
      exact ⟨none, _, rfl, rfl, h.value, h.carried⟩
    · rw [if_neg hown, if_neg fun hand => hown hand.2]
      exact ⟨none, d, rfl, h⟩
  · rw [if_neg fun hand => hdev (hand.1.trans h.name.symm)]
    exact ⟨none, d, receive_other_fields _ _ (by decide) hname hdev, h⟩

/-- Whatever the service sends, the device follows the register. -/
theorem Holds.step (randint : Nat → Nat → Nat → Nat) {c : ServiceCommand} {msg : Text}
    (h : d.Holds ft r) (hc : c.Clean) (hmsg : c.compose ft = .ok msg) :
    ∃ published d', d.receive randint msg = (.ok published, d') ∧ d'.Holds ft (r.step c) := by
  cases c with
  | get devname requests => exact h.step_get randint hc hmsg
  | put devname requests values => exact h.step_put randint hc hmsg
  | discover => exact h.step_discover randint hmsg
  | addDevice rep addressZigbee => exact h.step_addDevice randint hc hmsg

/-! ## Runs -/

/-- Over every list of commands the device follows the register, and no exception ends it. -/
theorem Holds.run (randint : Nat → Nat → Nat → Nat) {cmds : List ServiceCommand}
    {msgs : List Text} (h : d.Holds ft r) (hcmds : ∀ c ∈ cmds, c.Clean)
    (hmsgs : List.Forall₂ (fun c msg => c.compose ft = .ok msg) cmds msgs) :
    ∃ texts d', d.process randint msgs = (texts, some d') ∧
      d'.Holds ft (cmds.foldl SwitchRegister.step r) := by
  induction hmsgs generalizing d r with
  | nil => exact ⟨[], d, rfl, h⟩
  | cons hmsg _ ih =>
    rw [List.forall_mem_cons] at hcmds
    obtain ⟨published, d₁, hreceive, h₁⟩ := h.step randint hcmds.1 hmsg
    obtain ⟨texts, d', hprocess, h'⟩ := ih h₁ hcmds.2
    refine ⟨published.toList ++ texts, d', ?_, h'⟩
    rw [process, hreceive]
    dsimp only
    rw [hprocess]

/-! ## What a GET reads -/

/-- The request asks for the switch at the type of what was PUT, or for a sensor as an integer. -/
def Suits (v : CommandResult) (req : CommandRequest) : Prop :=
  (req.resname = lit "Switch" ∧ req.type = v.type) ∨
    ((req.resname = lit "SensorOne" ∨ req.resname = lit "SensorTwo") ∧ req.type.isInteger = true)

/-- The reading of the switch is what was PUT, that of a sensor a number of its range. -/
def Reports (v : CommandResult) (req : CommandRequest) (reading : CommandResult) : Prop :=
  (req.resname = lit "Switch" ∧ reading.type = v.type ∧ SameValue v.type reading.value v.value) ∨
    (req.resname = lit "SensorOne" ∧ 30 ≤ req.type.reading reading.value ∧
      req.type.reading reading.value ≤ 40) ∨
    (req.resname = lit "SensorTwo" ∧ 70 ≤ req.type.reading reading.value ∧
      req.type.reading reading.value ≤ 100)

theorem holds_hundred {t : PropertyType} (ht : t.isInteger = true) {n : Nat} (hn : n ≤ 100) :
    t.Holds n := by
  unfold PropertyType.Holds
  cases t with
  | bool | string | binary | float32 | float64 => cases ht
  | uint8 | uint16 | uint32 | uint64 | int8 | int16 | int32 | int64 =>
    simp only [PropertyType.isSigned, PropertyType.size]
    norm_num
    omega

/-- A sensor's number is stored at the type of the request. -/
theorem populateValue_decimal (ft : FloatText) {res : CommandResult}
    (ht : res.type.isInteger = true) {n : Nat} (hn : n ≤ 100) :
    ∃ stored, populateValue ft res (decimal n) = (true, stored) ∧
      res.type.reading stored.value = n := by
  have hx := holds_hundred ht hn
  have hscan := scanInteger_decimalInt res.type.base_eq n
  rw [decimalInt_natCast] at hscan
  exact ⟨_, populateValue_of_scanInteger ht hscan hx, PropertyType.reading_store ht hx _⟩

theorem Suits.isInteger {v : CommandResult} {req : CommandRequest} (h : Suits v req)
    (hres : req.resname ≠ lit "Switch") : req.type.isInteger = true := by
  rcases h with ⟨hswitch, -⟩ | ⟨-, ht⟩
  · exact absurd hswitch hres
  · exact ht

theorem Suits.type_eq {v : CommandResult} {req : CommandRequest} (h : Suits v req)
    (hres : req.resname = lit "Switch") : req.type = v.type := by
  rcases h with ⟨-, ht⟩ | ⟨hsensor, -⟩
  · exact ht
  · rw [hres] at hsensor
    exact absurd hsensor (by decide)

/-- What the device shows is accepted, and read as it should be. -/
theorem Shows.reports {v : CommandResult} {req : CommandRequest} {value : Text}
    (hshows : Shows (edgexValueTostring ft v true) req.resname value) (hsuits : Suits v req)
    (prior : CommandResult) (htype : prior.type = req.type) :
    ∃ reading, populateValue ft prior value = (true, reading) ∧ Reports v req reading := by
  cases hshows with
  | sensorOne hres hvalue hlow hhigh =>
    have ht := hsuits.isInteger (by rw [hres]; decide)
    obtain ⟨stored, hpop, hread⟩ := populateValue_decimal ft (htype ▸ ht)
      (hhigh.trans (by decide))
    rw [htype] at hread
    exact ⟨stored, hvalue ▸ hpop, .inr (.inl ⟨hres, by omega, by omega⟩)⟩
  | sensorTwo hres hvalue hlow hhigh =>
    have ht := hsuits.isInteger (by rw [hres]; decide)
    obtain ⟨stored, hpop, hread⟩ := populateValue_decimal ft (htype ▸ ht) hhigh
    rw [htype] at hread
    exact ⟨stored, hvalue ▸ hpop, .inr (.inr ⟨hres, by omega, by omega⟩)⟩
  | switch hres hvalue =>
    obtain ⟨origin, type, priorValue⟩ := prior
    obtain rfl : type = v.type := htype.trans (hsuits.type_eq hres)
    by_cases ht : v.type.isInteger = true
    · obtain ⟨stored, hpop, hsame⟩ := populateValue_tostring_integer ft ht origin priorValue
      exact ⟨⟨origin, v.type, stored⟩, hvalue ▸ hpop, .inl ⟨hres, rfl, hsame⟩⟩
    · obtain ⟨stored, hpop, hsame⟩ := populateValue_tostring_other ft ht origin priorValue
      exact ⟨⟨origin, v.type, stored⟩, hvalue ▸ hpop, .inl ⟨hres, rfl, hsame⟩⟩

theorem Shows.accepted {v : CommandResult} {req : CommandRequest} {value : Text}
    (hshows : Shows (edgexValueTostring ft v true) req.resname value) (hsuits : Suits v req) :
    ValueAccepted ft req.type value := by
  obtain ⟨reading, hpop, -⟩ := hshows.reports hsuits
    { CommandResult.zero with type := req.type } rfl
  rw [ValueAccepted, hpop]

theorem Shows.length_le {switchValue strRes value : Text} (h : Shows switchValue strRes value)
    (hswitch : switchValue.length < 100) : value.length < 100 := by
  have hdecimal : ∀ n ≤ 100, (decimal n).length < 100 := by decide
  cases h with
  | sensorOne hres hvalue hlow hhigh => exact hvalue ▸ hdecimal _ (hhigh.trans (by decide))
  | sensorTwo hres hvalue hlow hhigh => exact hvalue ▸ hdecimal _ hhigh
  | switch hres hvalue => exact hvalue ▸ hswitch

theorem length_fields_shows {switchValue : Text} {items values : List Text}
    (h : List.Forall₂ (Shows switchValue) items values) (hswitch : switchValue.length < 100) :
    (fields values).length ≤ 100 * items.length := by
  induction h with
  | nil => exact Nat.le_refl 0
  | cons hhead _ ih =>
    have := hhead.length_le hswitch
    simp only [fields_cons, List.length_append, List.length_cons]
    omega

theorem length_repgetMessage_le {reply : Reply} {switchValue : Text} {items : List Text}
    (horigin : reply.origin ≤ 100) (hshows : List.Forall₂ (Shows switchValue) items reply.values)
    (hswitch : switchValue.length < 100) (hitems : items.length < 100) :
    (repgetMessage reply).length ≤ reply.dev.length + 20000 := by
  have hfields := length_fields_shows hshows hswitch
  have hdecimal : ∀ n ≤ 100, (decimal n).length < 100 := by decide
  have horigin' := hdecimal _ horigin
  have hcount := hdecimal reply.values.length (hshows.length_eq ▸ hitems.le)
  have hwords : (lit "repget").length = 6 ∧ valueWord.length = 5 ∧ (lit "\n").length = 1 := by
    decide
  simp only [repgetMessage, eventMessage, fields_append, fields_cons, fields_nil,
    List.length_append, List.length_cons, List.length_nil, hwords]
  omega

theorem hash_notMem_shows {switchValue : Text} {items values : List Text}
    (h : List.Forall₂ (Shows switchValue) items values) (hswitch : hash ∉ switchValue) :
    ∀ value ∈ values, hash ∉ value := by
  induction h with
  | nil => exact List.forall_mem_nil _
  | cons hhead _ ih =>
    refine List.forall_mem_cons.mpr ⟨?_, ih⟩
    cases hhead with
    | sensorOne hres hvalue | sensorTwo hres hvalue => exact hvalue ▸ hash_notMem_decimal _
    | switch hres hvalue => exact hvalue ▸ hswitch

end DemoDevice

/-- A reply with a value for each request, all of them accepted, is read. -/
theorem Reply.Sent.read (ft : FloatText) {r : Reply} (hr : r.Sent) (hname : ¬ valueWord <:+ r.dev)
    {requests : List CommandRequest} {readings : List CommandResult}
    (hlen : readings.length = requests.length) (hcount : requests.length = r.values.length)
    (hall : AllAccepted ft requests r.values) :
    ∃ out, userRepgetEventRead ft readings r.dev requests (repgetMessage r) = .ok (true, out) ∧
      ReadingsOf ft (UInt64.ofInt (atoi (decimal r.origin))) requests r.values out := by
  set ev : SensorEvent :=
    { name := r.dev
      origin := UInt64.ofInt (atoi (decimal r.origin))
      commandDevice := lit "repget"
      size := UInt32.ofNat r.values.length
      value := some ⟨r.values.length, r.values, le_rfl⟩ } with hev
  have htake : Zigbee.takeEvent (repgetMessage r) = .ok ev := hr.takeEvent hname
  have hvalues : ev.values = r.values := rfl
  obtain ⟨out, hout⟩ : ∃ out, readReadings ft ev 0 requests readings = .ok (true, out) := by
    rcases readReadings_cases ft ev 0 hlen with ⟨-, -, h⟩ | ⟨-, h, -⟩ | ⟨h, -⟩
    · exact h
    · rw [List.drop_zero, hvalues] at h
      omega
    · exact absurd hall h
  have hsize : (UInt32.ofNat r.values.length).toNat = r.values.length := by
    refine UInt32.toNat_ofNat_of_lt ?_
    have hle := length_le_length_fields r.values
    have hlength := hr.length
    simp only [repgetMessage, eventMessage, fields_append, List.length_append] at hlength
    rw [UInt32.size]
    omega
  have hfree : freeEvent ev = .ok () := by
    have hcomplete : ev.Complete := hsize.symm
    exact hcomplete.freeEvent
  refine ⟨out, ?_, readReadings_readingsOf_values hlen hout⟩
  rw [userRepgetEventRead, htake, Checked.ok_bind, if_neg (not_not.mpr rfl), hout, Checked.ok_bind]
  dsimp only
  rw [hfree, Checked.ok_bind]

open DemoDevice

/-- The device does what the driver's model says of devices: its reply to a GET command in the air
is a step of the model. -/
theorem DemoDevice.step_reply {ft : FloatText} {randint : Nat → Nat → Nat → Nat} {s : State}
    {d : DemoDevice} {command : Tagged Text} {requests : List CommandRequest}
    (hrand : Within randint) (hair : command ∈ s.air) (hfree : s.owner = none)
    (hcommand : userGethandlerWrite d.myName requests = .ok command.val)
    (hname : hash ∉ d.myName) (hshort : d.myName.length < 2 ^ 30)
    (hresources : ∀ req ∈ requests, req.resname ∈ resources) (hne : requests ≠ [])
    (hswitch : d.switchValue ≠ []) (hcarried : Carried d.switchValue) :
    ∃ reply k s', d.receive randint command.val =
        (.ok (some (lit "b#" ++ repgetMessage reply)), { d with draws := k }) ∧
      step ft s (.reply command d.myName reply.origin reply.values) = some s' ∧
      s'.replies = s.replies ++ [reply] := by
  have hclean : ∀ req ∈ requests, hash ∉ req.resname := by
    have hres : ∀ x ∈ resources, hash ∉ x := by decide
    exact fun req hreq => hres _ (hresources req hreq)
  have hasked := receiveProccessEdgex_get hname hclean hcommand
  obtain ⟨hmsg, hfit⟩ := userGethandlerWrite_eq_ok.mp hcommand
  obtain ⟨⟨tag, dev, origin, values⟩, k, hreply, rfl, rfl, horigin, hshows⟩ :=
    repgetEdgex_reply hrand hswitch UserCmd.get.code d.myName (lit "100")
      (List.forall_mem_map.mpr hresources) (by simpa using hne) command.tag
  have hreceive := receive_get randint hname hclean
  rw [hreply, ← hmsg] at hreceive
  have hcount := length_le_length_fields (requests.map CommandRequest.resname)
  have hlength := length_repgetMessage_le horigin hshows hcarried.1 (by omega)
  dsimp only at hlength horigin hshows
  refine ⟨_, k, { s with
    air := s.air.erase command
    replies := s.replies ++ [⟨command.tag, d.myName, origin, values⟩]
    queueGetHandler := s.queueGetHandler.push
      ⟨repgetMessage ⟨command.tag, d.myName, origin, values⟩,
        some ⟨command.tag, d.myName, origin, values⟩⟩ }, hreceive, ?_, rfl⟩
  have hguard : command ∈ s.air ∧
      values.length = (requests.map CommandRequest.resname).length ∧ (∀ v ∈ values, hash ∉ v) ∧
      (repgetMessage ⟨command.tag, d.myName, origin, values⟩).length < 2 ^ 31 :=
    ⟨hair, hshows.length_eq.symm, hash_notMem_shows hshows hcarried.2, by omega⟩
  simp only [step, stepReply, hasked]
  rw [if_pos hguard, State.enQueueGet]
  exact if_pos hfree

end Zigbee
