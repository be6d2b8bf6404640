-- SUMMARY: The parsers of structString.h: takeString, takeEvent, takeValue and takeDiscovery, with their releases.
import Mathlib.Data.UInt
import ZigbeeService.Lib.Number

/-!
# Parsing radio messages

The parsers run on a NUL-terminated message. A cursor is an index into it; the terminator is the
byte at index `length`, so a cursor may stand there but not beyond.
-/

namespace Zigbee

open CLib

def hash : UInt8 := chr '#'

/-- `user_cmd`. -/
inductive UserCmd where
  | push | get | put | discovery | addDevice | protocol
  deriving DecidableEq, Repr

/-- The character that stands for a command at the start of a line. -/
def UserCmd.code : UserCmd → UInt8
  | .push => chr 'a'
  | .get => chr 'b'
  | .put => chr 'c'
  | .discovery => chr 'd'
  | .addDevice => chr 'e'
  | .protocol => chr 'f'

/-- The word after the header, behind which the values start. -/
def valueWord : Text := lit "value"

/-! ## Records -/

/-- A `malloc`'d array of `cap` strings, of which the first `cells.length` have been stored. -/
structure ValueArray where
  cap : Nat
  cells : List Text
  length_le : cells.length ≤ cap
  deriving DecidableEq

namespace ValueArray

def alloc (cap : Nat) : ValueArray := ⟨cap, [], Nat.zero_le _⟩

/-- Store the next cell. -/
def store (arr : ValueArray) (v : Text) : Checked ValueArray :=
  if h : arr.cells.length < arr.cap then
    .ok ⟨arr.cap, arr.cells ++ [v], by rw [List.length_append]; exact h⟩
  else .error .outOfBounds

/-- Read a cell. -/
def load (arr : ValueArray) (i : Nat) : Checked Text :=
  match arr.cells[i]? with
  | some v => .ok v
  | none => if i < arr.cap then .error .uninitialised else .error .outOfBounds

end ValueArray

/-- `sensorEvent`. The array is NULL when the message has no `value#`. -/
structure SensorEvent where
  name : Text
  origin : UInt64
  commandDevice : Text
  size : UInt32
  value : Option ValueArray
  deriving DecidableEq

/-- `ev->value[i]`. -/
def SensorEvent.loadValue (ev : SensorEvent) (i : Nat) : Checked Text :=
  match ev.value with
  | none => .error .nullPointer
  | some arr => arr.load i

/-- `repDiscovery`. -/
structure RepDiscovery where
  devname : Text
  mac : Text
  profile : Text
  model : Text
  deriving DecidableEq

/-! ## Parsers -/

/-- `takeString`: the text up to the next `#`, and the cursor behind it. The distance goes through
an `int`; without a `#`, it is computed from a null pointer. -/
def takeString (str : Text) (cur : Nat) : Checked (Text × Nat) :=
  match strstr [hash] (str.drop cur) with
  | none => .error .nullPointer
  | some find =>
    let n := toInt32 ((str.drop cur).length - find.length)
    let value := strndup (str.drop cur) n
    let next : Int := cur + n + 1
    if 0 ≤ next ∧ next ≤ str.length then .ok (value, next.toNat) else .error .outOfBounds

/-- `while (find[count] != '#') count++`, from `count` on: the terminator is not a `#` either, so
the scan of a text without `#` runs past it. -/
def scanHash : Text → Nat → Checked Nat
  | [], _ => .error .outOfBounds
  | c :: cs, count =>
    if c = hash then .ok count
    else if count + 1 < 2 ^ 31 then scanHash cs (count + 1) else .error .intOverflow

/-- The `for` loop of `takeValue`, with `k` values to go. -/
def readValues : Nat → Text → ValueArray → Checked ValueArray
  | 0, _, arr => .ok arr
  | k + 1, find, arr => do
    let count ← scanHash find 0
    let arr ← arr.store (strndup find count)
    readValues k (find.drop (count + 1)) arr

/-- `takeValue`: the values are looked for from the start of the message, and read into an array of
`ev->size` cells. -/
def takeValue (str : Text) (size : Int) (evSize : UInt32) : Checked (Option ValueArray) :=
  let value := ValueArray.alloc evSize.toNat
  match strstr (valueWord ++ [hash]) str with
  | none => .ok none
  | some find => do
    let find := find.drop (valueWord ++ [hash]).length
    .ok (some (← readValues size.toNat find value))

def takeEvent (str : Text) : Checked SensorEvent := do
  let (name, newStr) ← takeString str 0
  let (origin, newStr) ← takeString str newStr
  let (commandDevice, newStr) ← takeString str newStr
  let (strSize, _) ← takeString str newStr
  let size := UInt32.ofInt (atoi strSize)
  let value ← takeValue str (toInt32 size.toNat) size
  .ok
    { name := name
      origin := UInt64.ofInt (atoi origin)
      commandDevice := commandDevice
      size := size
      value := value }

/-- The loop of `freeEvent`, with `k` cells to go from index `i`: each cell is read and released. -/
def freeValues (ev : SensorEvent) : Nat → Nat → Checked Unit
  | 0, _ => .ok ()
  | k + 1, i => do
    let _ ← ev.loadValue i
    freeValues ev k (i + 1)

/-- `freeEvent`. The name and the command are strings `takeString` allocated; releasing them cannot
fail. -/
def freeEvent (ev : SensorEvent) : Checked Unit :=
  if ev.size ≠ 0 then freeValues ev ev.size.toNat 0 else .ok ()

def takeDiscovery (str : Text) : Checked RepDiscovery := do
  let (devname, newStr) ← takeString str 0
  let (mac, newStr) ← takeString str newStr
  let (profile, newStr) ← takeString str newStr
  let (model, _) ← takeString str newStr
  .ok { devname := devname, mac := mac, profile := profile, model := model }

/-- `freeDiscovery`: four strings that `takeString` allocated. -/
def freeDiscovery (_ : RepDiscovery) : Checked Unit := .ok ()

/-! ## Fields -/

/-- The fields of a text, each with its `#`. -/
def fields (fs : List Text) : Text := fs.flatMap fun f => f ++ [hash]

@[simp] theorem fields_nil : fields [] = [] := rfl

@[simp] theorem fields_cons (f : Text) (fs : List Text) :
    fields (f :: fs) = f ++ hash :: fields fs := by
  simp [fields]

theorem fields_append (fs gs : List Text) : fields (fs ++ gs) = fields fs ++ fields gs := by
  simp [fields]

theorem length_le_length_fields (fs : List Text) : fs.length ≤ (fields fs).length := by
  induction fs with
  | nil => simp
  | cons f fs ih =>
    simp only [fields_cons, List.length_append, List.length_cons]
    omega

/-- A text with `n` separators starts with `n` fields. -/
theorem exists_fields {n : Nat} {s : Text} (h : n ≤ s.count hash) :
    ∃ fs rest, fs.length = n ∧ s = fields fs ++ rest ∧ ∀ f ∈ fs, hash ∉ f := by
  induction n generalizing s with
  | zero => exact ⟨[], s, rfl, rfl, by simp⟩
  | succ n ih =>
    obtain ⟨f, rest, rfl, hf⟩ :=
      List.eq_append_cons_of_mem (List.count_pos_iff.mp (Nat.zero_lt_of_lt h))
    have hrest : n ≤ rest.count hash := by
      simpa [List.count_eq_zero_of_not_mem hf] using h
    obtain ⟨fs, rest, hlen, rfl, hfs⟩ := ih hrest
    exact ⟨f :: fs, rest, by simp [hlen], by simp, List.forall_mem_cons.mpr ⟨hf, hfs⟩⟩

theorem count_fields {fs : List Text} (h : ∀ f ∈ fs, hash ∉ f) :
    (fields fs).count hash = fs.length := by
  induction fs with
  | nil => rfl
  | cons f fs ih =>
    rw [List.forall_mem_cons] at h
    simp [List.count_eq_zero_of_not_mem h.1, ih h.2]

/-- Splitting a text of fields at its separators gives the fields and an empty last piece. -/
theorem splitOn_fields {fs : List Text} (h : ∀ f ∈ fs, hash ∉ f) :
    (fields fs).splitOn hash = fs ++ [[]] := by
  induction fs with
  | nil => rfl
  | cons f fs ih =>
    rw [List.forall_mem_cons] at h
    rw [fields_cons, List.splitOn_append_cons_self_of_not_mem h.1, ih h.2]
    rfl

/-- Taking the field at the cursor. The message is short enough for an `int`. -/
theorem takeString_field {str field rest : Text} {cur : Nat} (hstr : str.length < 2 ^ 31)
    (hdrop : str.drop cur = field ++ hash :: rest) (hf : hash ∉ field) :
    takeString str cur = .ok (field, cur + field.length + 1) ∧
      str.drop (cur + field.length + 1) = rest := by
  have hlen := congrArg List.length hdrop
  simp only [List.length_drop, List.length_append, List.length_cons] at hlen
  have hdist : toInt32 ((str.drop cur).length - (hash :: rest).length : Int) = field.length := by
    rw [hdrop, List.length_append, ← toInt32_natCast (n := field.length) (by omega)]
    congr 1
    push_cast
    omega
  refine ⟨?_, ?_⟩
  · simp only [takeString]
    rw [hdrop, strstr_sep hf, ← hdrop]
    dsimp only
    rw [hdist, strndup_natCast, hdrop, List.take_left]
    rw [if_pos ⟨by omega, by omega⟩]
    congr
  · rw [Nat.add_assoc, ← List.drop_drop, hdrop, ← List.drop_drop, List.drop_left]
    rfl

/-- Without another `#`, taking a field uses the null result of the search. -/
theorem takeString_error {str : Text} {cur : Nat} (h : hash ∉ str.drop cur) :
    takeString str cur = .error .nullPointer := by
  simp only [takeString]
  rw [← List.nil_append [hash], strstr_eq_none h]

/-- What taking a field can do: it takes a text without separator and moves behind the next `#`, or
there is no `#` left. -/
theorem takeString_cases {str : Text} (hstr : str.length < 2 ^ 31) (cur : Nat) :
    (∃ field cur', takeString str cur = .ok (field, cur') ∧ hash ∉ field ∧
        str.drop cur = field ++ hash :: str.drop cur') ∨
      (takeString str cur = .error .nullPointer ∧ hash ∉ str.drop cur) := by
  by_cases hmem : hash ∈ str.drop cur
  · obtain ⟨field, rest, hdrop, hf⟩ := List.eq_append_cons_of_mem hmem
    obtain ⟨htake, hrest⟩ := takeString_field hstr hdrop hf
    exact .inl ⟨field, _, htake, hf, by rw [hrest, hdrop]⟩
  · exact .inr ⟨takeString_error hmem, hmem⟩

/-- The four calls of `takeString` with which both kinds of message start. -/
def takeHeader (str : Text) : Checked (Text × Text × Text × Text) := do
  let (first, newStr) ← takeString str 0
  let (second, newStr) ← takeString str newStr
  let (third, newStr) ← takeString str newStr
  let (fourth, _) ← takeString str newStr
  .ok (first, second, third, fourth)

theorem takeEvent_eq (str : Text) :
    takeEvent str = (takeHeader str >>= fun (name, origin, commandDevice, strSize) =>
      takeValue str (toInt32 (UInt32.ofInt (atoi strSize)).toNat) (UInt32.ofInt (atoi strSize)) >>=
        fun value =>
          .ok
            { name := name
              origin := UInt64.ofInt (atoi origin)
              commandDevice := commandDevice
              size := UInt32.ofInt (atoi strSize)
              value := value }) := by
  simp only [takeEvent, takeHeader, bind_assoc, Checked.ok_bind]

theorem takeDiscovery_eq (str : Text) :
    takeDiscovery str = (takeHeader str >>= fun (devname, mac, profile, model) =>
      .ok { devname := devname, mac := mac, profile := profile, model := model }) := by
  simp only [takeDiscovery, takeHeader, bind_assoc, Checked.ok_bind]

/-- The header of a message that starts with four fields, whatever follows them. -/
theorem takeHeader_fields {a b c d body : Text}
    (hlen : (fields [a, b, c, d] ++ body).length < 2 ^ 31) (h : ∀ f ∈ [a, b, c, d], hash ∉ f) :
    takeHeader (fields [a, b, c, d] ++ body) = .ok (a, b, c, d) := by
  simp only [List.forall_mem_cons] at h
  obtain ⟨ha, hb, hc, hd, -⟩ := h
  set str := fields [a, b, c, d] ++ body with hstr
  have h₀ : str.drop 0 = a ++ hash :: (fields [b, c, d] ++ body) := by simp [hstr]
  obtain ⟨htake₁, h₁⟩ := takeString_field hlen h₀ ha
  have h₁' : _ = b ++ hash :: (fields [c, d] ++ body) := h₁.trans (by simp)
  obtain ⟨htake₂, h₂⟩ := takeString_field hlen h₁' hb
  have h₂' : _ = c ++ hash :: (fields [d] ++ body) := h₂.trans (by simp)
  obtain ⟨htake₃, h₃⟩ := takeString_field hlen h₂' hc
  have h₃' : _ = d ++ hash :: body := h₃.trans (by simp)
  obtain ⟨htake₄, -⟩ := takeString_field hlen h₃' hd
  simp only [takeHeader, htake₁, htake₂, htake₃, htake₄, Checked.ok_bind]

/-- A header is read exactly when the message has four separators. -/
theorem takeHeader_cases {str : Text} (hstr : str.length < 2 ^ 31) :
    (∃ a b c d body, takeHeader str = .ok (a, b, c, d) ∧ str = fields [a, b, c, d] ++ body ∧
        ∀ f ∈ [a, b, c, d], hash ∉ f) ∨
      (takeHeader str = .error .nullPointer ∧ str.count hash < 4) := by
  have hcount : ∀ {f : Text} {cur : Nat}, hash ∉ f →
      (f ++ hash :: str.drop cur).count hash = (str.drop cur).count hash + 1 := by
    intro f cur hf
    simp [List.count_eq_zero_of_not_mem hf]
  -- Each call either goes on behind the next separator or settles the count of the message.
  rcases takeString_cases hstr 0 with ⟨a, cur₁, h₁, ha, hd₁⟩ | ⟨h₁, hno⟩ <;>
    rw [List.drop_zero] at *
  case inr =>
    refine .inr ⟨by simp only [takeHeader, h₁, Checked.error_bind], ?_⟩
    rw [List.count_eq_zero_of_not_mem hno]
    decide
  rcases takeString_cases hstr cur₁ with ⟨b, cur₂, h₂, hb, hd₂⟩ | ⟨h₂, hno⟩
  case inr =>
    refine .inr ⟨by simp only [takeHeader, h₁, h₂, Checked.ok_bind, Checked.error_bind], ?_⟩
    rw [hd₁, hcount ha, List.count_eq_zero_of_not_mem hno]
    decide
  rcases takeString_cases hstr cur₂ with ⟨c, cur₃, h₃, hc, hd₃⟩ | ⟨h₃, hno⟩
  case inr =>
    refine .inr ⟨by
      simp only [takeHeader, h₁, h₂, h₃, Checked.ok_bind, Checked.error_bind], ?_⟩
    rw [hd₁, hcount ha, hd₂, hcount hb, List.count_eq_zero_of_not_mem hno]
    decide
  rcases takeString_cases hstr cur₃ with ⟨d, cur₄, h₄, hd, hd₄⟩ | ⟨h₄, hno⟩
  case inr =>
    refine .inr ⟨by
      simp only [takeHeader, h₁, h₂, h₃, h₄, Checked.ok_bind, Checked.error_bind], ?_⟩
    rw [hd₁, hcount ha, hd₂, hcount hb, hd₃, hcount hc, List.count_eq_zero_of_not_mem hno]
    decide
  refine .inl ⟨a, b, c, d, str.drop cur₄, ?_, ?_, by simp [ha, hb, hc, hd]⟩
  · simp only [takeHeader, h₁, h₂, h₃, h₄, Checked.ok_bind]
  · simp only [fields_cons, fields_nil, List.append_assoc, List.cons_append, List.nil_append]
    rw [← hd₄, ← hd₃, ← hd₂, ← hd₁]

theorem scanHash_field {field rest : Text} {count : Nat} (hf : hash ∉ field)
    (hlen : count + field.length < 2 ^ 31) :
    scanHash (field ++ hash :: rest) count = .ok (count + field.length) := by
  induction field generalizing count with
  | nil => simp [scanHash]
  | cons c field ih =>
    rw [List.mem_cons, not_or] at hf
    rw [List.length_cons] at hlen
    rw [List.cons_append, scanHash, if_neg (Ne.symm hf.1), if_pos (by omega),
      ih hf.2 (by omega), List.length_cons]
    congr 1
    omega

theorem scanHash_error {s : Text} (h : hash ∉ s) (count : Nat) :
    ∃ e, scanHash s count = .error e := by
  induction s generalizing count with
  | nil => exact ⟨_, rfl⟩
  | cons c s ih =>
    rw [List.mem_cons, not_or] at h
    rw [scanHash, if_neg (Ne.symm h.1)]
    split
    · exact ih h.2 _
    · exact ⟨_, rfl⟩

/-- The value loop reads the next `vs.length` fields into the array. -/
theorem readValues_fields {vs : List Text} (rest : Text) (arr : ValueArray)
    (hvs : ∀ v ∈ vs, hash ∉ v) (hcap : arr.cells.length + vs.length ≤ arr.cap)
    (hlen : (fields vs).length < 2 ^ 31) :
    ∃ arr', readValues vs.length (fields vs ++ rest) arr = .ok arr' ∧ arr'.cap = arr.cap ∧
      arr'.cells = arr.cells ++ vs := by
  induction vs generalizing arr with
  | nil => exact ⟨arr, rfl, rfl, by simp⟩
  | cons v vs ih =>
    rw [List.forall_mem_cons] at hvs
    simp only [List.length_cons, fields_cons, List.length_append] at hcap hlen
    have hscan : scanHash (fields (v :: vs) ++ rest) 0 = .ok v.length := by
      rw [fields_cons, List.append_assoc, List.cons_append,
        scanHash_field hvs.1 (by omega), Nat.zero_add]
    have hroom : arr.cells.length < arr.cap := by omega
    have hstore : arr.store v = .ok ⟨arr.cap, arr.cells ++ [v],
        by rw [List.length_append]; exact hroom⟩ := dif_pos hroom
    obtain ⟨arr', hread, hcap', hcells⟩ := ih ⟨arr.cap, arr.cells ++ [v],
      by rw [List.length_append]; exact hroom⟩ hvs.2 (by simp; omega) (by omega)
    have htake : strndup (fields (v :: vs) ++ rest) v.length = v := by
      rw [fields_cons, List.append_assoc, strndup_natCast, List.take_left]
    have hdrop : (fields (v :: vs) ++ rest).drop (v.length + 1) = fields vs ++ rest := by
      rw [fields_cons, List.append_assoc, List.cons_append, ← List.drop_drop, List.drop_left]
      rfl
    refine ⟨arr', ?_, hcap', by rw [hcells]; simp⟩
    rw [List.length_cons, readValues, hscan, Checked.ok_bind, htake, hstore, Checked.ok_bind,
      hdrop, hread]

end Zigbee
