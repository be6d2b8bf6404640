-- SUMMARY: The RX thread: what reading the serial line makes of the messages on it.
import Mathlib.Data.List.TakeWhile
import ZigbeeService.Driver.System
import ZigbeeService.Lib.CharArray

/-!
# Receiving

RX reads into a buffer of 255 bytes, asks for 255 bytes at a time, and terminates what it got with a
NUL. The first byte says which queue the text behind the prefix of two bytes goes to.
-/

namespace Zigbee

open CLib

/-! ## The serial line -/

def newline : UInt8 := 10

/-- A message on the line. Its newline is not part of the text. -/
structure SerialLine where
  text : Text
  newline_notMem : newline ∉ text

namespace SerialLine

/-- What the message occupies on the line. -/
def bytes (m : SerialLine) : Text := m.text ++ [newline]

theorem bytes_ne_nil (m : SerialLine) : m.bytes ≠ [] := by simp [bytes]

end SerialLine

/-- `read` from a terminal in canonical mode, with `lines` still to be read: at most one line and at
most `nbytes` bytes, and the rest of a longer line is left. It blocks when there is none. -/
def ttyRead (nbytes : Nat) : List Text → Option (Text × List Text)
  | [] => none
  | line :: lines =>
    if line.length ≤ nbytes then some (line, lines)
    else some (line.take nbytes, line.drop nbytes :: lines)

theorem ttyRead_rest {nbytes : Nat} {lines rest : List Text} {data : Text} (hpos : 0 < nbytes)
    (h : ttyRead nbytes lines = some (data, rest)) :
    (rest.map List.length).sum + rest.length < (lines.map List.length).sum + lines.length := by
  cases lines with
  | nil => cases h
  | cons line lines =>
    simp only [ttyRead] at h
    split at h
    · cases h
      simp only [List.map_cons, List.sum_cons, List.length_cons]
      omega
    · cases h
      simp only [List.map_cons, List.sum_cons, List.length_cons, List.length_drop]
      omega

/-! ## The RX thread -/

/-- The queues that RX puts text on. -/
inductive RxQueue where
  | push | getHandler | discovery
  deriving DecidableEq

/-- The `switch` on the first byte. -/
def rxQueue (cmd : UInt8) : Option RxQueue :=
  if cmd = UserCmd.push.code then some .push
  else if cmd = UserCmd.get.code then some .getHandler
  else if cmd = UserCmd.discovery.code then some .discovery
  else none

/-- `user_serial_read`, for the bytes that `read` returns: they are stored in the buffer with a NUL
behind them. -/
def userSerialRead {n : Nat} (buf : CharArray n) (data : Text) : Checked (CharArray n) := do
  let buf ← buf.copy data
  buf.store data.length 0

/-- What RX does with the bytes of one `read`: the buffer behind it, and its call of `enQueue`. -/
def rxRead (test : CharArray 255) (data : Text) :
    Checked (CharArray 255 × Option (RxQueue × Text)) := do
  let test ← userSerialRead test data
  if 0 < data.length then
    let cmd ← test.load 0
    let _ ← test.string 0
    match rxQueue cmd with
    | some queue => do
      let str ← test.string 2
      .ok (test, some (queue, str))
    | none => .ok (test, none)
  else .ok (test, none)

/-- The loop of `RX`, until the line is empty: its calls of `enQueue`. -/
def rx (test : CharArray 255) (lines : List Text) : Checked (List (RxQueue × Text)) :=
  match _h : ttyRead 255 lines with
  | none => .ok []
  | some (data, rest) => do
    let (test, call) ← rxRead test data
    let calls ← rx test rest
    .ok (call.toList ++ calls)
termination_by (lines.map List.length).sum + lines.length
decreasing_by exact ttyRead_rest (Nat.succ_pos 254) ‹_›

/-! ## One read -/

/-- Bytes that fill the buffer leave no room for the terminator. -/
theorem userSerialRead_full {n : Nat} {buf : CharArray n} {data : Text} (h : data.length = n) :
    userSerialRead buf data = .error .outOfBounds := by
  simp [userSerialRead, CharArray.copy, CharArray.store, h]

/-- The `enQueue` that the bytes of a read lead to. The text ends at its first NUL. -/
def rxCall (data : Text) : Option (RxQueue × Text) :=
  (data.head?.bind rxQueue).map fun queue => (queue, (data.drop 2).takeWhile (· ≠ 0))

/-- A read is handled exactly when the terminator fits behind its bytes. -/
theorem rxRead_eq_ok {test : CharArray 255} {data : Text} {call : Option (RxQueue × Text)}
    (htwo : (data.head?.bind rxQueue).isSome → 2 ≤ data.length) (hne : data ≠ []) :
    (∃ test', rxRead test data = .ok (test', call)) ↔ data.length < 255 ∧ call = rxCall data := by
  obtain ⟨c, cs, rfl⟩ := List.exists_cons_of_ne_nil hne
  -- what is read from the buffer once the bytes and the terminator are in it
  have hbody : ∀ {test' : CharArray 255},
      test'.bytes = c :: cs ++ 0 :: test.bytes.drop ((c :: cs).length + 1) →
      (do
        let cmd ← test'.load 0
        let _ ← test'.string 0
        match rxQueue cmd with
        | some queue => do
          let str ← test'.string 2
          .ok (test', some (queue, str))
        | none => .ok (test', none)) = .ok (test', rxCall (c :: cs)) := by
    intro test' hbytes
    have hload : test'.load 0 = .ok c := by simp [CharArray.load, hbytes]
    have hstring := CharArray.string_of_bytes hbytes (Nat.zero_le _)
    simp only [hload, hstring, Checked.ok_bind, rxCall, List.head?_cons, Option.bind_some] at *
    cases hqueue : rxQueue c with
    | none => rfl
    | some queue =>
      rw [hqueue] at htwo
      simp only [CharArray.string_of_bytes hbytes (htwo rfl), Checked.ok_bind, Option.map_some]
  constructor
  · rintro ⟨test', h⟩
    obtain ⟨test₁, hread, h⟩ := Checked.bind_eq_ok.mp h
    obtain ⟨hlt, hbytes⟩ := CharArray.copy_store_eq_ok.mp hread
    rw [if_pos (by simp), hbody hbytes] at h
    cases h
    exact ⟨hlt, rfl⟩
  · rintro ⟨hlt, rfl⟩
    obtain ⟨test', hread⟩ := test.exists_copy_store hlt
    refine ⟨test', Checked.bind_eq_ok.mpr ⟨test', hread, ?_⟩⟩
    rw [if_pos (by simp), hbody (CharArray.copy_store_eq_ok.mp hread).2]

/-! ## All messages -/

namespace SerialLine

/-- The `enQueue` that the message asks for: the whole text behind its prefix, its newline
included. -/
def delivery (m : SerialLine) : Option (RxQueue × Text) :=
  (m.bytes.head?.bind rxQueue).map fun queue => (queue, m.bytes.drop 2)

/-- A newline is no command, so a message with a command is longer than its prefix. -/
theorem two_le_length {m : SerialLine} (h : (m.bytes.head?.bind rxQueue).isSome) :
    2 ≤ m.bytes.length := by
  obtain ⟨text, hnew⟩ := m
  cases text with
  | nil => cases h
  | cons c text => simp [bytes]

/-- The text behind the prefix of a delivered message holds no NUL. -/
def NoNul (m : SerialLine) : Prop := m.delivery.isSome → 0 ∉ m.bytes.drop 2

/-- What is delivered is the whole text exactly when it holds no NUL. -/
theorem rxCall_eq_delivery {m : SerialLine} : rxCall m.bytes = m.delivery ↔ m.NoNul := by
  unfold rxCall delivery NoNul delivery
  cases m.bytes.head?.bind rxQueue with
  | none => simp
  | some queue =>
    simp only [Option.map_some, Option.some.injEq, Prod.mk.injEq, true_and,
      List.takeWhile_eq_self_iff, Option.isSome_some, forall_const]
    constructor
    · intro h hmem
      simpa using h 0 hmem
    · intro h c hc
      simp only [decide_not, Bool.not_eq_true', decide_eq_false_iff_not]
      rintro rfl
      exact h hc

end SerialLine

/-- RX delivers each message whole, in the order of their arrival, and nothing else. -/
def RxDelivers (test : CharArray 255) (ms : List SerialLine) : Prop :=
  rx test (ms.map SerialLine.bytes) = .ok (ms.filterMap SerialLine.delivery)

theorem rx_nil (test : CharArray 255) : rx test [] = .ok [] := by
  rw [rx]
  rfl

theorem rx_eq_ok {test : CharArray 255} {lines rest : List Text} {data : Text}
    (hread : ttyRead 255 lines = some (data, rest)) {calls : List (RxQueue × Text)} :
    rx test lines = .ok calls ↔ ∃ test' call calls', rxRead test data = .ok (test', call) ∧
      rx test' rest = .ok calls' ∧ calls = call.toList ++ calls' := by
  rw [rx]
  split
  · next hnone =>
    rw [hread] at hnone
    cases hnone
  · next data' rest' hsome =>
    rw [hread] at hsome
    cases hsome
    simp only [Checked.bind_eq_ok, Prod.exists, Except.ok.injEq]
    constructor
    · rintro ⟨test', call, hcall, calls', hrest, rfl⟩
      exact ⟨test', call, calls', hcall, hrest, rfl⟩
    · rintro ⟨test', call, calls', hcall, hrest, rfl⟩
      exact ⟨test', call, hcall, calls', hrest, rfl⟩

/-- A message is received exactly when it fits, and then it leads to one call at most. -/
theorem rx_cons_eq_ok {test : CharArray 255} {m : SerialLine} {ms : List SerialLine}
    {calls : List (RxQueue × Text)} :
    rx test ((m :: ms).map SerialLine.bytes) = .ok calls ↔
      m.bytes.length ≤ 254 ∧ ∃ test' calls', rxRead test m.bytes = .ok (test', rxCall m.bytes) ∧
        rx test' (ms.map SerialLine.bytes) = .ok calls' ∧
        calls = (rxCall m.bytes).toList ++ calls' := by
  by_cases hle : m.bytes.length ≤ 255
  · have hread : ttyRead 255 ((m :: ms).map SerialLine.bytes) =
        some (m.bytes, ms.map SerialLine.bytes) := if_pos hle
    have hok : ∀ {call}, (∃ test', rxRead test m.bytes = .ok (test', call)) ↔ _ :=
      rxRead_eq_ok SerialLine.two_le_length m.bytes_ne_nil
    rw [rx_eq_ok hread]
    constructor
    · rintro ⟨test', call, calls', hcall, hrest, rfl⟩
      obtain ⟨hlt, rfl⟩ := hok.mp ⟨test', hcall⟩
      exact ⟨by omega, test', calls', hcall, hrest, rfl⟩
    · rintro ⟨-, test', calls', hcall, hrest, rfl⟩
      exact ⟨test', _, calls', hcall, hrest, rfl⟩
  · -- the first part of a longer message fills the buffer, and leaves no room for the terminator
    have hread : ttyRead 255 ((m :: ms).map SerialLine.bytes) =
        some (m.bytes.take 255, m.bytes.drop 255 :: ms.map SerialLine.bytes) := if_neg hle
    have hlen : (m.bytes.take 255).length = 255 := by
      rw [List.length_take]
      omega
    refine iff_of_false (fun h => ?_) (fun h => hle (by omega))
    obtain ⟨test', call, calls', hcall, -⟩ := (rx_eq_ok hread).mp h
    have hlt := ((rxRead_eq_ok (fun _ => by omega) (List.ne_nil_of_length_pos (by omega))).mp
      ⟨test', hcall⟩).1
    omega

/-- RX delivers what the messages ask for, in the order of their arrival and nothing else, exactly
when every message fits in 254 bytes with its newline and no delivered text holds a NUL. -/
theorem rxDelivers_iff (test : CharArray 255) (ms : List SerialLine) :
    RxDelivers test ms ↔ ∀ m ∈ ms, m.bytes.length ≤ 254 ∧ m.NoNul := by
  unfold RxDelivers
  induction ms generalizing test with
  | nil => simp [rx_nil]
  | cons m ms ih =>
    rw [rx_cons_eq_ok, List.forall_mem_cons, and_assoc]
    refine and_congr_right fun hlen => ?_
    have hsame : rxCall m.bytes = m.delivery ↔ m.NoNul := SerialLine.rxCall_eq_delivery
    have hfilter : (m :: ms).filterMap SerialLine.delivery =
        m.delivery.toList ++ ms.filterMap SerialLine.delivery := by
      rw [List.filterMap_cons]
      cases m.delivery <;> rfl
    have hshape : (rxCall m.bytes).toList.length = m.delivery.toList.length := by
      unfold rxCall SerialLine.delivery
      cases m.bytes.head?.bind rxQueue <;> rfl
    rw [hfilter]
    constructor
    · rintro ⟨test', calls', -, hrest, hcalls⟩
      obtain ⟨hhead, htail⟩ := List.append_inj hcalls hshape.symm
      have hcall := congrArg List.head? hhead
      rw [Option.head?_toList, Option.head?_toList] at hcall
      exact ⟨hsame.mp hcall.symm, (ih test').mp (by rw [hrest, htail])⟩
    · rintro ⟨hnul, hrest⟩
      obtain ⟨test', hread⟩ : ∃ test', rxRead test m.bytes = .ok (test', rxCall m.bytes) :=
        (rxRead_eq_ok SerialLine.two_le_length m.bytes_ne_nil).mpr ⟨by omega, rfl⟩
      exact ⟨test', _, hread, (ih test').mpr hrest, by rw [hsame.mpr hnul]⟩

/-- A push of 255 bytes with its newline: the terminator is stored behind the buffer. -/
theorem rx_line_255 :
    ∃ m : SerialLine, m.bytes.head? = some UserCmd.push.code ∧ m.bytes.length = 255 ∧
      0 ∉ m.bytes ∧ ∀ test, userSerialRead test m.bytes = .error .outOfBounds ∧
        ¬ RxDelivers test [m] := by
  have hmem {c : UInt8} (hcode : c ∉ lit "a#") (hx : c ≠ chr 'x') :
      c ∉ lit "a#" ++ List.replicate 252 (chr 'x') := by
    rw [List.mem_append, List.mem_replicate]
    exact fun h => h.elim hcode fun h => hx h.2
  let m : SerialLine := ⟨lit "a#" ++ List.replicate 252 (chr 'x'), hmem (by decide) (by decide)⟩
  have hlen : m.bytes.length = 255 := by
    rw [SerialLine.bytes, List.length_append, List.length_append, List.length_replicate]
    rfl
  have hnul : 0 ∉ m.bytes := by
    rw [SerialLine.bytes, List.mem_append, not_or]
    exact ⟨hmem (by decide) (by decide), by decide⟩
  refine ⟨m, rfl, hlen, hnul, fun test => ⟨userSerialRead_full hlen, fun h => ?_⟩⟩
  have hfits := (rx_cons_eq_ok.mp h).1
  omega

/-! ## Replies -/

/-- The line on which a device publishes a reply: the prefix of its command, and the reply. -/
def Reply.line (r : Reply)
    (h : newline ∉ eventMessage r.dev (decimal r.origin) (lit "repget") r.values) : SerialLine where
  text := lit "b#" ++ eventMessage r.dev (decimal r.origin) (lit "repget") r.values
  newline_notMem := by
    rw [List.mem_append, not_or]
    exact ⟨by decide, h⟩

/-- A reply that fits the buffer is put on `QueueGetHandler` as it was composed. -/
theorem rx_reply {r : Reply}
    (hnew : newline ∉ eventMessage r.dev (decimal r.origin) (lit "repget") r.values)
    (hlen : (repgetMessage r).length ≤ 252) (hnul : 0 ∉ repgetMessage r) (test : CharArray 255) :
    rx test [(r.line hnew).bytes] = .ok [(.getHandler, repgetMessage r)] := by
  have hbytes : (r.line hnew).bytes = lit "b#" ++ repgetMessage r := by
    rw [SerialLine.bytes, Reply.line, List.append_assoc]
    rfl
  have hfits : (r.line hnew).bytes.length ≤ 254 := by
    rw [hbytes, List.length_append]
    exact Nat.add_le_add_left hlen 2
  have hcall : rxCall (r.line hnew).bytes = some (.getHandler, repgetMessage r) := by
    have hwhole : (repgetMessage r).takeWhile (· ≠ 0) = repgetMessage r := cstring_eq hnul
    have hdrop : (lit "b#" ++ repgetMessage r).drop 2 = repgetMessage r := rfl
    rw [rxCall, hbytes, hdrop, hwhole]
    rfl
  obtain ⟨test', hread⟩ : ∃ test', rxRead test (r.line hnew).bytes =
      .ok (test', rxCall (r.line hnew).bytes) :=
    (rxRead_eq_ok SerialLine.two_le_length (SerialLine.bytes_ne_nil _)).mpr ⟨by omega, rfl⟩
  have hok : rx test ([r.line hnew].map SerialLine.bytes) =
      .ok ((rxCall (r.line hnew).bytes).toList ++ []) :=
    rx_cons_eq_ok.mpr ⟨hfits, test', [], hread, rx_nil test', rfl⟩
  rw [hcall] at hok
  exact hok

end Zigbee
