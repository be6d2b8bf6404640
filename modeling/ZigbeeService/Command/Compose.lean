-- SUMMARY: The commands the service composes: user_gethandler_write and user_puthandler_write.
import ZigbeeService.Message.Parse
import ZigbeeService.Sdk.Value

/-!
# Composing commands

A command is a line of fields. Both writers collect the fields of the request in a buffer of 100
bytes and print the whole command to a block that they allocate for it. Lengths are natural numbers:
a command is far too short for the `int` they are kept in.
-/

namespace Zigbee

open CLib

def colon : UInt8 := chr ':'

/-! ## The functions of user.c -/

/-- The loop of `user_gethandler_write`. -/
def appendResnames : List CommandRequest → Text → Checked Text
  | [], fullResname => .ok fullResname
  | req :: reqs, fullResname => do
    let fullResname ← strcat 100 fullResname req.resname
    let fullResname ← strcat 100 fullResname [hash]
    appendResnames reqs fullResname

/-- `user_gethandler_write`. -/
def userGethandlerWrite (devname : Text) (requests : List CommandRequest) : Checked Text := do
  let fullResname ← appendResnames requests []
  let length := devname.length + (lit "100").length + 5 + fullResname.length + 6
  sprintf length
    (fields [[UserCmd.get.code], devname, lit "100", decimalInt (toInt32 requests.length)] ++
      fullResname)

/-- The loop of `user_puthandler_write`. -/
def appendValues (ft : FloatText) :
    List CommandRequest → List CommandResult → Text → Checked Text
  | [], _, fullValue => .ok fullValue
  | _ :: _, [], _ => .error .outOfBounds
  | req :: reqs, value :: values, fullValue => do
    let strValues := edgexValueTostring ft value true
    let fullValue ← strcat 100 fullValue req.resname
    let fullValue ← strcat 100 fullValue [colon]
    let fullValue ← strcat 100 fullValue strValues
    let fullValue ← strcat 100 fullValue [hash]
    appendValues ft reqs values fullValue

/-- `user_puthandler_write`. -/
def userPuthandlerWrite (ft : FloatText) (devname : Text) (requests : List CommandRequest)
    (values : List CommandResult) : Checked Text := do
  let fullValue ← appendValues ft requests values []
  let length := devname.length + (lit "0").length + 5 + fullValue.length + 6
  sprintf length
    (fields [[UserCmd.put.code], devname, lit "0", decimalInt (toInt32 requests.length)] ++
      fullValue)

/-! ## The layout of a command -/

/-- The field of a value: the resource, a colon, the text of the value. -/
def valueField (ft : FloatText) (req : CommandRequest) (value : CommandResult) : Text :=
  req.resname ++ colon :: edgexValueTostring ft value true

theorem appendResnames_eq_ok {reqs : List CommandRequest} (acc : Text) {t : Text}
    (hacc : acc.length < 100) :
    appendResnames reqs acc = .ok t ↔
      t = acc ++ fields (reqs.map CommandRequest.resname) ∧ t.length < 100 := by
  induction reqs generalizing acc with
  | nil =>
    simp only [appendResnames, Except.ok.injEq, List.map_nil, fields_nil, List.append_nil]
    constructor
    · rintro rfl
      exact ⟨rfl, hacc⟩
    · rintro ⟨rfl, -⟩
      rfl
  | cons req reqs ih =>
    simp only [appendResnames, Checked.bind_eq_ok, strcat_eq_ok]
    constructor
    · rintro ⟨_, ⟨rfl, -⟩, _, ⟨rfl, hfit⟩, h⟩
      obtain ⟨rfl, hlen⟩ := (ih _ (by simp at hfit ⊢; omega)).mp h
      exact ⟨by simp, hlen⟩
    · rintro ⟨rfl, hlen⟩
      simp only [List.map_cons, fields_cons, List.length_append, List.length_cons] at hlen
      refine ⟨_, ⟨rfl, by omega⟩, _, ⟨rfl, by simp; omega⟩, ?_⟩
      rw [ih _ (by simp; omega)]
      exact ⟨by simp, by simp; omega⟩

theorem appendValues_eq_ok {ft : FloatText} {reqs : List CommandRequest}
    {values : List CommandResult} (acc : Text) {t : Text} (hacc : acc.length < 100)
    (hlen : reqs.length = values.length) :
    appendValues ft reqs values acc = .ok t ↔
      t = acc ++ fields (List.zipWith (valueField ft) reqs values) ∧ t.length < 100 := by
  induction reqs generalizing acc values with
  | nil =>
    simp only [appendValues, Except.ok.injEq, List.zipWith_nil_left, fields_nil, List.append_nil]
    constructor
    · rintro rfl
      exact ⟨rfl, hacc⟩
    · rintro ⟨rfl, -⟩
      rfl
  | cons req reqs ih =>
    cases values with
    | nil => cases hlen
    | cons value values =>
      simp only [appendValues, Checked.bind_eq_ok, strcat_eq_ok]
      constructor
      · rintro ⟨_, ⟨rfl, -⟩, _, ⟨rfl, -⟩, _, ⟨rfl, -⟩, _, ⟨rfl, hfit⟩, h⟩
        obtain ⟨rfl, hlt⟩ := (ih _ (by simp at hfit ⊢; omega) (by simpa using hlen)).mp h
        exact ⟨by simp [valueField], hlt⟩
      · rintro ⟨rfl, hlt⟩
        simp only [List.zipWith_cons_cons, fields_cons, valueField, List.length_append,
          List.length_cons] at hlt
        refine ⟨_, ⟨rfl, by omega⟩, _, ⟨rfl, by simp; omega⟩, _, ⟨rfl, by simp; omega⟩, _,
          ⟨rfl, by simp; omega⟩, ?_⟩
        rw [ih _ (by simp; omega) (by simpa using hlen)]
        exact ⟨by simp [valueField], by simp [valueField]; omega⟩

/-- Fewer fields than the buffer has bytes: their count takes two digits at most. -/
theorem decimalInt_count {n : Nat} (hn : n < 100) :
    decimalInt (toInt32 n) = decimal n ∧ (decimal n).length ≤ 2 := by
  rw [toInt32_natCast (by omega), decimalInt_natCast]
  exact ⟨rfl, by revert n; decide⟩

/-- Printing a command to its block: the four fields of the header, and what was collected. -/
theorem sprintf_command_eq_ok {code : UInt8} {devname word : Text} {items : List Text}
    {msg : Text} {extra : Nat} (hitems : (fields items).length < 100) (hextra : extra = word.length)
    {n : Nat} (hn : n = items.length) :
    sprintf (devname.length + extra + 5 + (fields items).length + 6)
        (fields [[code], devname, word, decimalInt (toInt32 n)] ++ fields items) = .ok msg ↔
      msg = fields ([[code], devname, word, decimal n] ++ items) := by
  have hcount := length_le_length_fields items
  obtain ⟨htext, hdigits⟩ := decimalInt_count (n := n) (by omega)
  rw [sprintf_eq_ok, htext, fields_append]
  refine and_iff_left ?_
  simp only [fields_cons, fields_nil, List.length_append, List.length_cons, List.length_nil]
  omega

/-- A GET command is composed exactly when the resource names fit their buffer. -/
theorem userGethandlerWrite_eq_ok {devname : Text} {requests : List CommandRequest} {msg : Text} :
    userGethandlerWrite devname requests = .ok msg ↔
      msg = fields ([[UserCmd.get.code], devname, lit "100", decimal requests.length] ++
          requests.map CommandRequest.resname) ∧
        (fields (requests.map CommandRequest.resname)).length < 100 := by
  simp only [userGethandlerWrite, Checked.bind_eq_ok, appendResnames_eq_ok [] (by decide),
    List.nil_append]
  constructor
  · rintro ⟨_, ⟨rfl, hfit⟩, h⟩
    exact ⟨(sprintf_command_eq_ok hfit rfl (by simp)).mp h, hfit⟩
  · rintro ⟨hmsg, hfit⟩
    exact ⟨_, ⟨rfl, hfit⟩, (sprintf_command_eq_ok hfit rfl (by simp)).mpr hmsg⟩

/-- A PUT command is composed exactly when the resource names and the value texts fit their
buffer. -/
theorem userPuthandlerWrite_eq_ok {ft : FloatText} {devname : Text}
    {requests : List CommandRequest} {values : List CommandResult} {msg : Text}
    (hlen : requests.length = values.length) :
    userPuthandlerWrite ft devname requests values = .ok msg ↔
      msg = fields ([[UserCmd.put.code], devname, lit "0", decimal requests.length] ++
          List.zipWith (valueField ft) requests values) ∧
        (fields (List.zipWith (valueField ft) requests values)).length < 100 := by
  simp only [userPuthandlerWrite, Checked.bind_eq_ok,
    appendValues_eq_ok [] (by decide) hlen, List.nil_append]
  constructor
  · rintro ⟨_, ⟨rfl, hfit⟩, h⟩
    exact ⟨(sprintf_command_eq_ok hfit rfl (by simp [hlen])).mp h, hfit⟩
  · rintro ⟨hmsg, hfit⟩
    exact ⟨_, ⟨rfl, hfit⟩, (sprintf_command_eq_ok hfit rfl (by simp [hlen])).mpr hmsg⟩

end Zigbee
