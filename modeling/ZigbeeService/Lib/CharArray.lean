-- SUMMARY: Character arrays of a fixed size, and the strings kept in them.
import ZigbeeService.Lib.Text

/-!
# Character arrays

Every access is checked against the size of the array. A string in an array ends at the first NUL
behind its start, whatever was stored there before.
-/

namespace CLib

/-- `char buf[n]`. -/
structure CharArray (n : Nat) where
  bytes : List UInt8
  length_eq : bytes.length = n

namespace CharArray

variable {n : Nat}

def load (buf : CharArray n) (i : Nat) : Checked UInt8 :=
  match buf.bytes[i]? with
  | some c => .ok c
  | none => .error .outOfBounds

def store (buf : CharArray n) (i : Nat) (c : UInt8) : Checked (CharArray n) :=
  if i < n then .ok ⟨buf.bytes.set i c, by rw [List.length_set, buf.length_eq]⟩
  else .error .outOfBounds

/-- Copy bytes to the start of the array. -/
def copy (buf : CharArray n) (data : List UInt8) : Checked (CharArray n) :=
  if h : data.length ≤ n then
    .ok ⟨data ++ buf.bytes.drop data.length, by
      rw [List.length_append, List.length_drop, buf.length_eq]; omega⟩
  else .error .outOfBounds

/-- The string at `buf + i`. -/
def string (buf : CharArray n) (i : Nat) : Checked Text :=
  if 0 ∈ buf.bytes.drop i then .ok ((buf.bytes.drop i).takeWhile (· ≠ 0)) else .error .outOfBounds

/-- `strlen (buf + i)`. -/
def strlen (buf : CharArray n) (i : Nat) : Checked Nat := do
  let s ← buf.string i
  return s.length

/-- `strncmp (buf + i, s, k) == 0`. The comparison ends behind a NUL or a difference. -/
def strncmp (buf : CharArray n) (i : Nat) (s : Text) : Nat → Checked Bool
  | 0 => return true
  | k + 1 => do
    let c ← buf.load i
    if c ≠ s.headD 0 then return false
    else if c = 0 then return true
    else buf.strncmp (i + 1) s.tail k

/-- `strndup (buf + i, k)`. The copy ends at a NUL, or after `k` characters. -/
def strndup (buf : CharArray n) (i : Nat) : Nat → Checked Text
  | 0 => return []
  | k + 1 => do
    let c ← buf.load i
    if c = 0 then return []
    else do
      let s ← buf.strndup (i + 1) k
      return c :: s

/-- `strchr (buf + i, c)`: where the character is. -/
def strchr (buf : CharArray n) (i : Nat) (c : UInt8) : Checked (Option Nat) := do
  let s ← buf.string i
  return if c ∈ s then some (i + s.idxOf c) else none

/-- Copying a text and the NUL behind it needs room for both. -/
theorem copy_store_eq_ok {buf buf' : CharArray n} {data : List UInt8} :
    (buf.copy data >>= fun buf => buf.store data.length 0) = .ok buf' ↔
      data.length < n ∧ buf'.bytes = data ++ 0 :: buf.bytes.drop (data.length + 1) := by
  have hset (hlt : data.length < n) :
      (data ++ buf.bytes.drop data.length).set data.length 0 =
        data ++ 0 :: buf.bytes.drop (data.length + 1) := by
    rw [List.set_append_right _ _ le_rfl, Nat.sub_self,
      List.drop_eq_getElem_cons (by rw [buf.length_eq]; exact hlt), List.set_cons_zero]
  rw [Checked.bind_eq_ok]
  constructor
  · rintro ⟨buf₁, hcopy, hstore⟩
    unfold copy at hcopy
    split at hcopy
    case isFalse => cases hcopy
    case isTrue hle =>
      cases hcopy
      unfold store at hstore
      split at hstore
      case isFalse => cases hstore
      case isTrue hlt =>
        cases hstore
        exact ⟨hlt, hset hlt⟩
  · rintro ⟨hlt, hbytes⟩
    obtain ⟨bytes, hlen⟩ := buf'
    subst hbytes
    refine ⟨_, dif_pos hlt.le, (if_pos hlt).trans ?_⟩
    simp only [hset hlt]

theorem exists_copy_store (buf : CharArray n) {data : List UInt8} (h : data.length < n) :
    ∃ buf', (buf.copy data >>= fun buf => buf.store data.length 0) = .ok buf' := by
  have hlen : (data ++ 0 :: buf.bytes.drop (data.length + 1)).length = n := by
    simp only [List.length_append, List.length_cons, List.length_drop, buf.length_eq]
    omega
  exact ⟨⟨_, hlen⟩, copy_store_eq_ok.mpr ⟨h, rfl⟩⟩

/-- A string that starts inside the text ends with it, or at a NUL that the text holds. -/
theorem string_of_bytes {buf : CharArray n} {data rest : List UInt8} {i : Nat}
    (hbytes : buf.bytes = data ++ 0 :: rest) (hi : i ≤ data.length) :
    buf.string i = .ok ((data.drop i).takeWhile (· ≠ 0)) := by
  have hdrop : buf.bytes.drop i = data.drop i ++ 0 :: rest := by
    rw [hbytes, List.drop_append_of_le_length hi]
  rw [string, hdrop, if_pos (by simp), List.takeWhile_append]
  split
  · next hall =>
    rw [(List.takeWhile_prefix _).eq_of_length hall]
    simp
  · rfl

theorem eq_of_bytes {buf buf' : CharArray n} (h : buf.bytes = buf'.bytes) : buf = buf' := by
  obtain ⟨bytes, hlen⟩ := buf
  obtain ⟨bytes', hlen'⟩ := buf'
  cases h
  rfl

theorem store_eq_ok {buf buf' : CharArray n} {i : Nat} {c : UInt8} :
    buf.store i c = .ok buf' ↔ i < n ∧ buf'.bytes = buf.bytes.set i c := by
  unfold store
  split
  · next hi =>
    rw [Except.ok.injEq]
    constructor
    · rintro rfl
      exact ⟨hi, rfl⟩
    · exact fun h => eq_of_bytes h.2.symm
  · next hi =>
    constructor
    · exact nofun
    · exact fun h => absurd h.1 hi

section Inside

variable {buf : CharArray n} {i k : Nat}

theorem load_of_drop {c : UInt8} {rest : List UInt8} (h : buf.bytes.drop i = c :: rest) :
    buf.load i = .ok c := by
  rw [load, ← List.head?_drop, h]
  rfl

theorem exists_load (buf : CharArray n) (hi : i < n) : ∃ c, buf.load i = .ok c := by
  rw [← buf.length_eq] at hi
  exact ⟨_, load_of_drop (List.drop_eq_getElem_cons hi)⟩

/-- One character of a comparison, if the rest of it is known. -/
theorem strncmp_cons {c x : UInt8} {s rest : List UInt8} (hload : buf.load i = .ok c) (hx : x ≠ 0)
    (hrest : buf.strncmp (i + 1) s k = .ok (decide (s.take k <+: rest))) :
    buf.strncmp i (x :: s) (k + 1) = .ok (decide ((x :: s).take (k + 1) <+: c :: rest)) := by
  rw [strncmp, hload, Checked.ok_bind, List.headD_cons, List.tail_cons, List.take_succ_cons]
  by_cases hc : c = x
  · rw [if_neg (not_not_intro hc), if_neg (hc ▸ hx), hrest]
    simp [hc]
  · rw [if_pos hc]
    simp [Ne.symm hc]

/-- A comparison that does not leave the array. -/
theorem strncmp_of_le {s : Text} (hi : i + k ≤ n) (hk : k ≤ s.length) (hs : 0 ∉ s) :
    buf.strncmp i s k = .ok (decide (s.take k <+: buf.bytes.drop i)) := by
  induction k generalizing i s with
  | zero => simp [strncmp]
  | succ k ih =>
    obtain ⟨x, s, rfl⟩ := List.exists_cons_of_length_pos (Nat.lt_of_lt_of_le (Nat.succ_pos k) hk)
    have hlt : i < buf.bytes.length := by
      rw [buf.length_eq]
      omega
    have hdrop := List.drop_eq_getElem_cons hlt
    rw [List.mem_cons, not_or] at hs
    rw [hdrop]
    exact strncmp_cons (load_of_drop hdrop) (Ne.symm hs.1)
      (ih (by omega) (Nat.le_of_succ_le_succ hk) hs.2)

/-- A copy of characters of the array. -/
theorem strndup_of_le (hi : i + k ≤ n) :
    buf.strndup i k = .ok (cstring ((buf.bytes.drop i).take k)) := by
  induction k generalizing i with
  | zero => rfl
  | succ k ih =>
    have hlt : i < buf.bytes.length := by
      rw [buf.length_eq]
      omega
    rw [strndup, load_of_drop (List.drop_eq_getElem_cons hlt), Checked.ok_bind,
      List.drop_eq_getElem_cons hlt, List.take_succ_cons, ih (by omega)]
    by_cases hc : buf.bytes[i] = 0
    · rw [if_pos hc, hc, cstring_nul]
      rfl
    · rw [if_neg hc, cstring_cons hc]
      rfl

end Inside

section Strings

variable {buf : CharArray n} {data rest : List UInt8} (hbytes : buf.bytes = data ++ 0 :: rest)
  (hdata : 0 ∉ data)
include hbytes hdata

/-- What is left of a text is a string. -/
theorem string_drop {i : Nat} (hi : i ≤ data.length) : buf.string i = .ok (data.drop i) := by
  rw [string_of_bytes hbytes hi]
  exact congrArg Except.ok (cstring_eq fun hmem => hdata (List.mem_of_mem_drop hmem))

theorem strlen_eq {i : Nat} (hi : i ≤ data.length) : buf.strlen i = .ok (data.length - i) := by
  rw [strlen, string_drop hbytes hdata hi, Checked.ok_bind, List.length_drop]
  rfl

omit hdata in
/-- Comparing with a text that is at least as long. -/
theorem strncmp_eq {i k : Nat} {s : Text} (hi : i ≤ data.length) (hk : k ≤ s.length) (hs : 0 ∉ s) :
    buf.strncmp i s k = .ok (decide (s.take k <+: data.drop i)) := by
  induction k generalizing i s with
  | zero => simp [strncmp]
  | succ k ih =>
    obtain ⟨x, s, rfl⟩ := List.exists_cons_of_length_pos (Nat.lt_of_lt_of_le (Nat.succ_pos k) hk)
    rw [List.mem_cons, not_or] at hs
    have hload : buf.load i = .ok ((data.drop i).headD 0) := by
      rw [load, hbytes]
      rcases Nat.lt_or_eq_of_le hi with hlt | rfl
      · rw [List.getElem?_append_left hlt, List.getElem?_eq_getElem hlt,
          List.drop_eq_getElem_cons hlt]
        rfl
      · simp
    rcases Nat.lt_or_eq_of_le hi with hlt | rfl
    · rw [List.drop_eq_getElem_cons hlt] at hload ⊢
      exact strncmp_cons hload (Ne.symm hs.1) (ih hlt (Nat.le_of_succ_le_succ hk) hs.2)
    · rw [strncmp, hload, Checked.ok_bind, List.drop_length]
      simp [hs.1]

theorem strchr_eq_some {i : Nat} {c : UInt8} {l r : Text} (hi : i ≤ data.length)
    (hdrop : data.drop i = l ++ c :: r) (hl : c ∉ l) :
    buf.strchr i c = .ok (some (i + l.length)) := by
  rw [strchr, string_drop hbytes hdata hi, hdrop, Checked.ok_bind, if_pos (by simp),
    List.idxOf_append_of_notMem hl, List.idxOf_cons_self, Nat.add_zero]
  rfl

theorem strchr_eq_none {i : Nat} {c : UInt8} (hi : i ≤ data.length) (hc : c ∉ data.drop i) :
    buf.strchr i c = .ok none := by
  rw [strchr, string_drop hbytes hdata hi, Checked.ok_bind, if_neg hc]
  rfl

end Strings

end CharArray

end CLib
