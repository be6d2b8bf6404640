-- SUMMARY: The event layout of the devices, and when takeEvent reads it back.
import ZigbeeService.Message.Parse

/-!
# The event round trip

A device composes `name#origin#command#n#value#v1#...#vn#`. The header is read with a cursor, the
values are searched for from the start of the message. The two agree unless the name or the command
ends in `value`, since the `#` behind it then makes the word the search is for.
-/

namespace Zigbee

open CLib

/-- The layout of `template_push` and `template_repget`. -/
def eventMessage (name origin command : Text) (values : List Text) : Text :=
  fields ([name, origin, command, decimal values.length, valueWord] ++ values)

/-- A text of decimal digits. -/
def IsDecimal (s : Text) : Prop := s ≠ [] ∧ ∀ c ∈ s, isdigit c = true

instance (s : Text) : Decidable (IsDecimal s) :=
  have : Decidable (∀ c ∈ s, isdigit c = true) := List.decidableBAll _ s
  inferInstanceAs (Decidable (_ ∧ _))

theorem IsDecimal.hash_notMem {s : Text} (h : IsDecimal s) : hash ∉ s := fun hmem =>
  absurd (h.2 _ hmem) (by decide)

theorem isDecimal_decimal (n : Nat) : IsDecimal (decimal n) :=
  ⟨decimal_ne_nil n, fun _ => isdigit_of_mem_decimal⟩

/-- A number does not end in a word. -/
theorem IsDecimal.not_valueWord_suffix {s : Text} (h : IsDecimal s) : ¬ valueWord <:+ s := by
  intro hsuf
  have hmem : chr 'e' ∈ s := hsuf.subset (by decide)
  exact absurd (h.2 _ hmem) (by decide)

theorem hash_notMem_valueWord : hash ∉ valueWord := by decide

/-- Fields that do not end in the word are skipped by the search. -/
theorem strstr_fields {fs : List Text} (rest : Text) (hfs : ∀ f ∈ fs, hash ∉ f)
    (hw : ∀ f ∈ fs, ¬ valueWord <:+ f) :
    strstr (valueWord ++ [hash]) (fields fs ++ rest) = strstr (valueWord ++ [hash]) rest := by
  induction fs with
  | nil => rfl
  | cons f fs ih =>
    rw [List.forall_mem_cons] at hfs hw
    rw [fields_cons, List.append_assoc, List.cons_append,
      strstr_field hash_notMem_valueWord hfs.1, if_neg hw.1]
    exact ih hfs.2 hw.2

/-- The event behind a header of four fields, whatever follows them. -/
theorem takeEvent_header {name origin command size body : Text}
    (hlen : (fields [name, origin, command, size] ++ body).length < 2 ^ 31)
    (h : ∀ f ∈ [name, origin, command, size], hash ∉ f) :
    takeEvent (fields [name, origin, command, size] ++ body) =
      (takeValue (fields [name, origin, command, size] ++ body)
          (toInt32 (UInt32.ofInt (atoi size)).toNat) (UInt32.ofInt (atoi size)) >>= fun value =>
        .ok
          { name := name
            origin := UInt64.ofInt (atoi origin)
            commandDevice := command
            size := UInt32.ofInt (atoi size)
            value := value }) := by
  rw [takeEvent_eq, takeHeader_fields hlen h, Checked.ok_bind]

/-- Where the values of a message start, when no earlier field ends in the word. -/
theorem strstr_eventMessage {name origin command : Text} (values : List Text) (rest : Text)
    (hname : hash ∉ name) (horigin : IsDecimal origin) (hcommand : hash ∉ command)
    (hn : ¬ valueWord <:+ name) (hc : ¬ valueWord <:+ command) :
    strstr (valueWord ++ [hash]) (eventMessage name origin command values ++ rest) =
      some (valueWord ++ hash :: (fields values ++ rest)) := by
  have hsplit : eventMessage name origin command values ++ rest =
      fields [name, origin, command, decimal values.length] ++
        (valueWord ++ hash :: (fields values ++ rest)) := by
    simp [eventMessage]
  have hsize := isDecimal_decimal values.length
  rw [hsplit, strstr_fields]
  · rw [strstr_field hash_notMem_valueWord hash_notMem_valueWord, if_pos List.suffix_rfl]
  · simpa using ⟨hname, horigin.hash_notMem, hcommand, hsize.hash_notMem⟩
  · simpa using ⟨hn, horigin.not_valueWord_suffix, hc, hsize.not_valueWord_suffix⟩

/-- A message whose name and command do not end in `value` is read back, whatever follows its last
`#`. -/
theorem takeEvent_eventMessage {name origin command : Text} {values : List Text} (rest : Text)
    (hlen : (eventMessage name origin command values ++ rest).length < 2 ^ 31)
    (hname : hash ∉ name) (horigin : IsDecimal origin) (hcommand : hash ∉ command)
    (hvalues : ∀ v ∈ values, hash ∉ v)
    (hn : ¬ valueWord <:+ name) (hc : ¬ valueWord <:+ command) :
    takeEvent (eventMessage name origin command values ++ rest) =
      .ok
        { name := name
          origin := UInt64.ofInt (atoi origin)
          commandDevice := command
          size := UInt32.ofNat values.length
          value := some ⟨values.length, values, le_rfl⟩ } := by
  have hfind := strstr_eventMessage values rest hname horigin hcommand hn hc
  have hcount := length_le_length_fields values
  have hlen' : (fields values).length < 2 ^ 31 := by
    refine lt_of_le_of_lt ?_ hlen
    simp only [eventMessage, fields_append, List.length_append]
    omega
  have hsize : UInt32.ofInt (atoi (decimal values.length)) = UInt32.ofNat values.length := by
    rw [atoi_decimal (by omega), uint32_ofInt_natCast]
  have hword : (UInt32.ofNat values.length).toNat = values.length :=
    UInt32.toNat_ofNat_of_lt (by rw [UInt32.size]; omega)
  obtain ⟨arr, hread, hcap, hcells⟩ := readValues_fields rest
    (ValueArray.alloc values.length) hvalues (by simp [ValueArray.alloc]) hlen'
  have harr : arr = ⟨values.length, values, le_rfl⟩ := by
    obtain ⟨cap, cells, hle⟩ := arr
    simp only [ValueArray.alloc, List.nil_append] at hcap hcells
    subst hcap hcells
    rfl
  have hsplit : eventMessage name origin command values ++ rest =
      fields [name, origin, command, decimal values.length] ++
        (valueWord ++ hash :: (fields values ++ rest)) := by
    simp [eventMessage]
  have hdrop : (valueWord ++ hash :: (fields values ++ rest)).drop
      (valueWord ++ [hash]).length = fields values ++ rest := by
    rw [List.append_cons valueWord hash (fields values ++ rest), List.drop_left]
  rw [hsplit] at hlen hfind ⊢
  rw [takeEvent_header hlen (by simpa using ⟨hname, horigin.hash_notMem, hcommand,
    (isDecimal_decimal values.length).hash_notMem⟩), hsize]
  simp only [takeValue, hfind, hword, toInt32_natCast (show values.length < 2 ^ 31 by omega),
    Int.toNat_natCast, hdrop, hread, Checked.ok_bind, harr]

/-! ## The exact condition -/

/-- The message is read back: the values are found behind the header, and the event has the name,
the command, the size and the values that were composed. -/
def RoundTrips (name origin command : Text) (values : List Text) : Prop :=
  let msg := eventMessage name origin command values
  strstr (valueWord ++ [hash]) msg = some (valueWord ++ hash :: fields values) ∧
    ∃ ev arr, takeEvent msg = .ok ev ∧ ev.name = name ∧ ev.commandDevice = command ∧
      ev.size.toNat = values.length ∧ ev.value = some arr ∧ arr.cells = values

/-- A search that stops in a field of the header leaves more than the values behind it. -/
theorem strstr_ne_of_suffix {field : Text} {fs values : List Text} (hf : hash ∉ field)
    (hw : valueWord <:+ field) :
    strstr (valueWord ++ [hash]) (field ++ hash :: fields (fs ++ valueWord :: values)) ≠
      some (valueWord ++ hash :: fields values) := by
  rw [strstr_field hash_notMem_valueWord hf, if_pos hw]
  intro h
  have hlen := congrArg List.length (Option.some.inj h)
  simp only [fields_append, fields_cons, List.length_append, List.length_cons] at hlen
  omega

/-- A message, short enough for an `int`, is read back exactly when neither its name nor its command
ends in `value`. -/
theorem takeEvent_roundTrips_iff {name origin command : Text} {values : List Text}
    (hlen : (eventMessage name origin command values).length < 2 ^ 31)
    (hname : hash ∉ name) (horigin : IsDecimal origin) (hcommand : hash ∉ command)
    (hvalues : ∀ v ∈ values, hash ∉ v) :
    RoundTrips name origin command values ↔
      ¬ valueWord <:+ name ∧ ¬ valueWord <:+ command := by
  constructor
  · rintro ⟨hfind, -⟩
    have hn : ¬ valueWord <:+ name := by
      intro hw
      have hmsg : eventMessage name origin command values =
          name ++ hash ::
            fields ([origin, command, decimal values.length] ++ valueWord :: values) := by
        simp [eventMessage]
      rw [hmsg] at hfind
      exact strstr_ne_of_suffix hname hw hfind
    refine ⟨hn, fun hw => ?_⟩
    have hmsg : eventMessage name origin command values =
        fields [name, origin] ++
          (command ++ hash :: fields ([decimal values.length] ++ valueWord :: values)) := by
      simp [eventMessage]
    rw [hmsg, strstr_fields _ (by simpa using ⟨hname, horigin.hash_notMem⟩)
      (by simpa using ⟨hn, horigin.not_valueWord_suffix⟩)] at hfind
    exact strstr_ne_of_suffix hcommand hw hfind
  · rintro ⟨hn, hc⟩
    have hfind := strstr_eventMessage values [] hname horigin hcommand hn hc
    have htake := takeEvent_eventMessage [] (by simpa using hlen) hname horigin hcommand
      hvalues hn hc
    simp only [List.append_nil] at hfind htake
    refine ⟨hfind, _, _, htake, rfl, rfl, ?_, rfl, rfl⟩
    refine UInt32.toNat_ofNat_of_lt ?_
    have hcount : values.length ≤ (eventMessage name origin command values).length := by
      simp only [eventMessage, fields_append, List.length_append]
      have := length_le_length_fields values
      omega
    rw [UInt32.size]
    omega

theorem takeEvent_roundTrips_iff_sensorOne :
    (¬ valueWord <:+ lit "RandomDevice1" ∧ ¬ valueWord <:+ lit "SensorOne") ∧
      RoundTrips (lit "RandomDevice1") (lit "60") (lit "SensorOne") [lit "30"] :=
  have h : ¬ valueWord <:+ lit "RandomDevice1" ∧ ¬ valueWord <:+ lit "SensorOne" := by decide
  ⟨h, (takeEvent_roundTrips_iff (by decide) (by decide) (by decide) (by decide)
    (by decide)).mpr h⟩

/-- A device called `value` sends the value 5 and is read as if it had sent its origin 1. -/
theorem takeEvent_device_value :
    takeEvent (eventMessage (lit "value") (lit "1") (lit "c") [lit "5"]) =
        .ok ⟨lit "value", 1, lit "c", 1, some ⟨1, [lit "1"], le_rfl⟩⟩ ∧
      ¬ RoundTrips (lit "value") (lit "1") (lit "c") [lit "5"] := by
  refine ⟨by decide, ?_⟩
  rintro ⟨hfind, -⟩
  exact absurd hfind (by decide)

end Zigbee
