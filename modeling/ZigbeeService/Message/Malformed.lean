-- SUMMARY: What the parsers do on arbitrary bytes, and exactly which messages they handle.
import ZigbeeService.Driver.Discovery
import ZigbeeService.Message.Reading

/-!
# Malformed messages

A parser handles a message when it builds a complete record that can be released, or when each of
its callers is told that the message is malformed. The second never happens: nothing that the
parsers notice reaches a caller, so every message that is not well formed faults somewhere.
-/

namespace Zigbee

open CLib

/-! ## Releasing an event -/

/-- The strings that were stored in an array, or none behind a null pointer. -/
def cellsOf : Option ValueArray → List Text
  | some arr => arr.cells
  | none => []

namespace SensorEvent

/-- The value strings of an event. -/
def values (ev : SensorEvent) : List Text := cellsOf ev.value

/-- The event has exactly the value strings its size announces. -/
def Complete (ev : SensorEvent) : Prop := ev.values.length = ev.size.toNat

theorem loadValue_eq_ok {ev : SensorEvent} {i : Nat} :
    (∃ v, ev.loadValue i = .ok v) ↔ i < ev.values.length := by
  unfold loadValue values
  cases ev.value with
  | none => simp [cellsOf]
  | some arr =>
    dsimp only [ValueArray.load, cellsOf]
    split
    · next v hv => simpa using (List.getElem?_eq_some_iff.mp hv).1
    · next hv =>
      have hle := List.getElem?_eq_none_iff.mp hv
      split <;> simpa using hle

end SensorEvent

theorem freeValues_eq_ok {ev : SensorEvent} {k i : Nat} (hk : 0 < k) :
    freeValues ev k i = .ok () ↔ i + k ≤ ev.values.length := by
  induction k generalizing i with
  | zero => cases hk
  | succ k ih =>
    rw [freeValues, Checked.bind_eq_ok]
    have hload : (∃ v, ev.loadValue i = .ok v) ↔ i < ev.values.length :=
      SensorEvent.loadValue_eq_ok
    cases k with
    | zero => simpa [freeValues, Nat.succ_le_iff] using hload
    | succ k =>
      rw [exists_and_right, hload, ih (Nat.succ_pos k)]
      omega

/-- An event can be released when the loop finds a string in every cell it reads. -/
theorem freeEvent_eq_ok {ev : SensorEvent} :
    freeEvent ev = .ok () ↔ ev.size.toNat ≤ ev.values.length := by
  unfold freeEvent
  by_cases hsize : ev.size = 0
  · simp [hsize]
  · have hpos : 0 < ev.size.toNat := by
      rw [Nat.pos_iff_ne_zero]
      exact fun h => hsize (UInt32.toNat_inj.mp h)
    rw [if_pos hsize, freeValues_eq_ok hpos, Nat.zero_add]

theorem SensorEvent.Complete.freeEvent {ev : SensorEvent} (h : ev.Complete) :
    Zigbee.freeEvent ev = .ok () :=
  freeEvent_eq_ok.mpr (Nat.le_of_eq (Eq.symm h))

/-! ## What it means to handle a message -/

/-- The readers report that the message is malformed, whoever asks. -/
structure SignalsMalformed (s : Text) : Prop where
  push : ∀ ft svc, userPushEventRead ft svc s = .ok none
  repget : ∀ ft readings devname requests, readings.length = requests.length →
    ∃ readings', userRepgetEventRead ft readings devname requests s = .ok (false, readings')

def EventHandled (s : Text) : Prop :=
  (∃ ev, takeEvent s = .ok ev ∧ ev.Complete ∧ freeEvent ev = .ok ()) ∨ SignalsMalformed s

/-- `user_add_new_device` reports that the message is malformed, in every state whose counter has
room in `addr_str`. -/
def SignalsMalformedDiscovery (s : Text) : Prop :=
  ∀ metadata st, st.addressZigbee < 1000 → ∃ st', userAddNewDevice metadata st s = .ok (false, st')

def DiscoveryHandled (s : Text) : Prop :=
  (∃ rep, takeDiscovery s = .ok rep ∧ freeDiscovery rep = .ok ()) ∨ SignalsMalformedDiscovery s

/-! ## Well-formed messages -/

/-- The separators behind the first `value#` of a message. -/
def valueHashes (s : Text) : Nat :=
  match strstr (valueWord ++ [hash]) s with
  | none => 0
  | some find => (find.drop (valueWord ++ [hash]).length).count hash

/-- Four fields, and as many values as the fourth announces. -/
def EventWellFormed (s : Text) : Prop :=
  ∃ name origin command size body, s = fields [name, origin, command, size] ++ body ∧
    (∀ f ∈ [name, origin, command, size], hash ∉ f) ∧
    0 ≤ atoi size ∧ atoi size ≤ valueHashes s

/-- A text that runs out of separators makes the value loop fault. -/
theorem readValues_error {k : Nat} {s : Text} {arr : ValueArray} (hs : s.length < 2 ^ 31)
    (h : s.count hash < k) : ∃ e, readValues k s arr = .error e := by
  induction k generalizing s arr with
  | zero => cases h
  | succ k ih =>
    by_cases hmem : hash ∈ s
    · obtain ⟨f, rest, rfl, hf⟩ := List.eq_append_cons_of_mem hmem
      rw [List.length_append, List.length_cons] at hs
      rw [readValues, scanHash_field hf (by omega), Checked.ok_bind]
      cases hstore : arr.store (strndup (f ++ hash :: rest) ((0 + f.length : Nat) : Int)) with
      | error e => exact ⟨e, rfl⟩
      | ok arr' =>
        rw [Checked.ok_bind, Nat.zero_add, ← List.drop_drop, List.drop_left]
        refine ih (by simp; omega) ?_
        simpa [List.count_eq_zero_of_not_mem hf] using h
    · obtain ⟨e, he⟩ := scanHash_error hmem 0
      exact ⟨e, by rw [readValues, he, Checked.error_bind]⟩

/-- The value loop runs through exactly when there is a separator for every value. -/
theorem readValues_cases {k : Nat} {s : Text} (hs : s.length < 2 ^ 31) :
    (k ≤ s.count hash ∧
        ∃ arr, readValues k s (ValueArray.alloc k) = .ok arr ∧ arr.cells.length = k) ∨
      (s.count hash < k ∧ ∃ e, readValues k s (ValueArray.alloc k) = .error e) := by
  rcases Nat.lt_or_ge (s.count hash) k with hlt | hge
  · exact .inr ⟨hlt, readValues_error hs hlt⟩
  · refine .inl ⟨hge, ?_⟩
    obtain ⟨fs, rest, rfl, rfl, hfs⟩ := exists_fields hge
    rw [List.length_append] at hs
    obtain ⟨arr, hread, -, hcells⟩ := readValues_fields rest
      (ValueArray.alloc fs.length) hfs (by simp [ValueArray.alloc]) (by omega)
    exact ⟨arr, hread, by simp [hcells, ValueArray.alloc]⟩

/-- `takeValue` either stores as many strings as the size says, or it faults or stores fewer. -/
theorem takeValue_cases {s : Text} {n : Int} (hs : s.length < 2 ^ 31) (h₁ : -2 ^ 31 ≤ n)
    (h₂ : n < 2 ^ 31) :
    ((0 ≤ n ∧ n ≤ valueHashes s) ∧ ∃ value, takeValue s n (UInt32.ofInt n) = .ok value ∧
        (cellsOf value).length = (UInt32.ofInt n).toNat) ∨
      (¬ (0 ≤ n ∧ n ≤ valueHashes s) ∧ ((∃ e, takeValue s n (UInt32.ofInt n) = .error e) ∨
        ∃ value, takeValue s n (UInt32.ofInt n) = .ok value ∧
          (cellsOf value).length < (UInt32.ofInt n).toNat)) := by
  have hword := uint32_toNat_ofInt n
  simp only [takeValue, valueHashes]
  cases hfind : strstr (valueWord ++ [hash]) s with
  | none =>
    dsimp only
    rcases Int.lt_trichotomy n 0 with hneg | rfl | hpos
    · exact .inr ⟨by omega, .inr ⟨none, rfl, by simp only [cellsOf, List.length_nil]; omega⟩⟩
    · exact .inl ⟨by simp, none, rfl, rfl⟩
    · exact .inr ⟨by omega, .inr ⟨none, rfl, by simp only [cellsOf, List.length_nil]; omega⟩⟩
  | some find =>
    dsimp only
    rcases lt_or_ge n 0 with hneg | hge
    · -- The loop does not run, and the array has a cell for every unsigned number below the size.
      have hzero : n.toNat = 0 := Int.toNat_of_nonpos (by omega)
      refine .inr ⟨by omega, .inr ⟨some (ValueArray.alloc (UInt32.ofInt n).toNat), ?_, ?_⟩⟩
      · rw [hzero]
        rfl
      · simp only [cellsOf, ValueArray.alloc, List.length_nil]
        omega
    · have hsize : (UInt32.ofInt n).toNat = n.toNat := by omega
      have hlen : (find.drop (valueWord ++ [hash]).length).length < 2 ^ 31 := by
        have := (strstr_suffix hfind).length_le
        rw [List.length_drop]
        omega
      rw [hsize]
      rcases readValues_cases (k := n.toNat) hlen with ⟨hle, arr, hread, hcells⟩ | ⟨hlt, e, hread⟩
      · exact .inl ⟨by omega, some arr, by rw [hread, Checked.ok_bind], hcells⟩
      · exact .inr ⟨by omega, .inl ⟨e, by rw [hread, Checked.error_bind]⟩⟩

/-! ## The exact condition -/

/-- A well-formed message gives a complete event; any other one faults, or gives an event with
fewer strings than its size. -/
theorem takeEvent_cases {s : Text} (hs : s.length < 2 ^ 31) :
    (EventWellFormed s ∧ ∃ ev, takeEvent s = .ok ev ∧ ev.Complete) ∨
      (¬ EventWellFormed s ∧ ((∃ e, takeEvent s = .error e) ∨
        ∃ ev, takeEvent s = .ok ev ∧ ev.values.length < ev.size.toNat)) := by
  rcases takeHeader_cases hs with ⟨name, origin, command, size, body, hhead, hsplit, hfields⟩ |
    ⟨hhead, hcount⟩
  · obtain ⟨hlow, hhigh⟩ := atoi_bounds size
    have hwf : EventWellFormed s ↔ 0 ≤ atoi size ∧ atoi size ≤ valueHashes s := by
      constructor
      · rintro ⟨name', origin', command', size', body', rfl, hfields', hsize'⟩
        rw [takeHeader_fields hs hfields'] at hhead
        cases hhead
        exact hsize'
      · exact fun hsize => ⟨name, origin, command, size, body, hsplit, hfields, hsize⟩
    rw [hwf, takeEvent_eq, hhead]
    simp only [Checked.ok_bind, toInt32_uint32_ofInt hlow hhigh]
    rcases takeValue_cases hs hlow hhigh with
      ⟨hsize, value, htake, hcells⟩ | ⟨hsize, ⟨e, htake⟩ | ⟨value, htake, hcells⟩⟩
    · refine .inl ⟨hsize, _, by rw [htake]; rfl, ?_⟩
      exact hcells
    · exact .inr ⟨hsize, .inl ⟨e, by rw [htake]; rfl⟩⟩
    · refine .inr ⟨hsize, .inr ⟨_, by rw [htake]; rfl, ?_⟩⟩
      exact hcells
  · refine .inr ⟨?_, .inl ⟨_, by rw [takeEvent_eq, hhead]; rfl⟩⟩
    rintro ⟨name, origin, command, size, body, rfl, hfields, -⟩
    rw [List.count_append, count_fields hfields] at hcount
    simp at hcount

/-- A reader can only report a malformed message behind a parser that returned an event it can
release. -/
theorem SignalsMalformed.takeEvent {s : Text} (h : SignalsMalformed s) :
    ∃ ev, Zigbee.takeEvent s = .ok ev ∧ freeEvent ev = .ok () := by
  have hpush := h.push FloatText.empty ⟨fun _ => none⟩
  obtain ⟨ev, hev, hfree⟩ := Checked.bind_eq_ok.mp hpush
  obtain ⟨⟨⟩, hfree, -⟩ := Checked.bind_eq_ok.mp hfree
  exact ⟨ev, hev, hfree⟩

theorem eventHandled_iff {s : Text} (hs : s.length < 2 ^ 31) :
    EventHandled s ↔ EventWellFormed s := by
  rcases takeEvent_cases hs with ⟨hwf, ev, hev, hcomplete⟩ | ⟨hwf, hbad⟩
  · exact iff_of_true (.inl ⟨ev, hev, hcomplete, hcomplete.freeEvent⟩) hwf
  · refine iff_of_false (fun hhandled => ?_) hwf
    obtain ⟨ev, hev, hfree⟩ : ∃ ev, takeEvent s = .ok ev ∧ freeEvent ev = .ok () := by
      rcases hhandled with ⟨ev, hev, -, hfree⟩ | hsignal
      · exact ⟨ev, hev, hfree⟩
      · exact hsignal.takeEvent
    rcases hbad with ⟨e, he⟩ | ⟨ev', hev', hlt⟩
    · rw [he] at hev
      cases hev
    · rw [hev'] at hev
      cases hev
      have := freeEvent_eq_ok.mp hfree
      omega

theorem discoveryHandled_iff {s : Text} (hs : s.length < 2 ^ 31) :
    DiscoveryHandled s ↔ 4 ≤ s.count hash := by
  rcases takeHeader_cases hs with ⟨a, b, c, d, body, hhead, rfl, hfields⟩ | ⟨hhead, hcount⟩
  · refine iff_of_true (.inl ⟨_, by rw [takeDiscovery_eq, hhead]; rfl, rfl⟩) ?_
    rw [List.count_append, count_fields hfields]
    simp
  · have herr : takeDiscovery s = .error .nullPointer := by rw [takeDiscovery_eq, hhead]; rfl
    refine iff_of_false ?_ (by omega)
    rintro (⟨rep, hrep, -⟩ | hsignal)
    · rw [herr] at hrep
      cases hrep
    · obtain ⟨st', hst⟩ := hsignal (fun _ => none) (DiscoverState.init 0 []) (by decide)
      obtain ⟨_, -, hst⟩ := Checked.bind_eq_ok.mp hst
      rw [herr] at hst
      cases hst

/-- Any message that can arrive is handled exactly when it is well formed: an event has four fields
and the values it announces, a discovery reply has four fields. -/
theorem messages_handled_iff {s : Text} (hs : s.length < 2 ^ 31) :
    (EventHandled s ↔ EventWellFormed s) ∧ (DiscoveryHandled s ↔ 4 ≤ s.count hash) :=
  ⟨eventHandled_iff hs, discoveryHandled_iff hs⟩

theorem messages_handled_iff_sensorOne :
    EventHandled (lit "RandomDevice1#60#SensorOne#1#value#30#\n") ∧
      DiscoveryHandled (lit "newdevice#29081997#ExampleSensor#BKHN#\n") :=
  ⟨(messages_handled_iff (by decide)).1.mpr
      ⟨lit "RandomDevice1", lit "60", lit "SensorOne", lit "1", lit "value#30#\n", by decide,
        by decide, by decide, by decide⟩,
    (messages_handled_iff (by decide)).2.mpr (by decide)⟩

/-- A line without any separator: the first call of `takeString` computes with the null result of
its search, in both parsers. -/
theorem takeEvent_no_separator :
    takeEvent (lit "hello") = .error .nullPointer ∧
      takeDiscovery (lit "hello") = .error .nullPointer ∧
      ¬ EventHandled (lit "hello") ∧ ¬ DiscoveryHandled (lit "hello") := by
  refine ⟨by decide, by decide, ?_, ?_⟩
  · rw [eventHandled_iff (by decide)]
    rintro ⟨name, origin, command, size, body, hsplit, -⟩
    have hmem : hash ∈ lit "hello" := by rw [hsplit]; simp
    exact absurd hmem (by decide)
  · rw [discoveryHandled_iff (by decide)]
    decide

end Zigbee
