-- SUMMARY: The UTF-8 check of parson accepts exactly the encodings of sequences of Unicode characters.
import ZigbeeService.Lib.Json

/-!
# Valid UTF-8

`is_valid_utf8` guards every string that goes into a document. A `Char` is a Unicode scalar value:
a code point up to 0x10FFFF that is no surrogate half. The check accepts exactly the texts that are
put together from encodings of such characters, each in the shortest form.
-/

namespace Zigbee

open CLib

-- ---------------------------------------------------------------------------
-- Bytes
-- ---------------------------------------------------------------------------

/-- A continuation byte by its number. -/
theorem isCont_iff (b : UInt8) : isCont b = true ↔ 0x80 ≤ b.toNat ∧ b.toNat < 0xC0 := by
  revert b
  exact forall_byte (by decide +kernel)

/-- The length of a sequence by the number of its first byte. -/
theorem numBytesInUtf8Sequence_eq (b : UInt8) :
    numBytesInUtf8Sequence b =
      if b.toNat < 0x80 then 1 else if b.toNat < 0xC2 then 0 else if b.toNat < 0xE0 then 2
      else if b.toNat < 0xF0 then 3 else if b.toNat < 0xF5 then 4 else 0 := by
  revert b
  exact forall_byte (by decide +kernel)

theorem eq_numBytesInUtf8Sequence_iff {n : Nat} {b : UInt8} :
    n = numBytesInUtf8Sequence b ∧ 0 < n ↔
      n = 1 ∧ b.toNat < 0x80 ∨ n = 2 ∧ 0xC2 ≤ b.toNat ∧ b.toNat < 0xE0 ∨
        n = 3 ∧ 0xE0 ≤ b.toNat ∧ b.toNat < 0xF0 ∨ n = 4 ∧ 0xF0 ≤ b.toNat ∧ b.toNat < 0xF5 := by
  rw [numBytesInUtf8Sequence_eq]
  split_ifs <;> omega

theorem toNat_and_low (b : UInt8) :
    (b &&& 0x1F).toNat = b.toNat % 0x20 ∧ (b &&& 0xF).toNat = b.toNat % 0x10 ∧
      (b &&& 0x7).toNat = b.toNat % 0x8 ∧ (b &&& 0x3F).toNat = b.toNat % 0x40 := by
  revert b
  exact forall_byte (by decide +kernel)

/-- What holds of every byte behind the first, for each length of a sequence. -/
theorem forall_behind {P : Nat → Prop} :
    ((∀ i < 1, 0 < i → P i) ↔ True) ∧ ((∀ i < 2, 0 < i → P i) ↔ P 1) ∧
      ((∀ i < 3, 0 < i → P i) ↔ P 1 ∧ P 2) ∧ ((∀ i < 4, 0 < i → P i) ↔ P 1 ∧ P 2 ∧ P 3) := by
  simp only [Nat.forall_lt_succ_right, Nat.not_lt_zero, false_implies, implies_true, true_and,
    Nat.zero_lt_succ, forall_const, Nat.lt_irrefl, and_assoc]

/-! The encoding of a character by the number of its bytes. -/

theorem utf8EncodeChar_one {c : Char} (h : c.toNat < 0x80) :
    String.utf8EncodeChar c = [UInt8.ofNat c.toNat] :=
  if_pos (show c.toNat ≤ 0x7F by omega)

theorem utf8EncodeChar_two {c : Char} (h : 0x80 ≤ c.toNat) (h' : c.toNat < 0x800) :
    String.utf8EncodeChar c =
      [UInt8.ofNat (c.toNat / 64 % 0x20 + 0xC0), UInt8.ofNat (c.toNat % 0x40 + 0x80)] :=
  (if_neg (show ¬ c.toNat ≤ 0x7F by omega)).trans (if_pos (show c.toNat ≤ 0x7FF by omega))

theorem utf8EncodeChar_three {c : Char} (h : 0x800 ≤ c.toNat) (h' : c.toNat < 0x10000) :
    String.utf8EncodeChar c =
      [UInt8.ofNat (c.toNat / 4096 % 0x10 + 0xE0), UInt8.ofNat (c.toNat / 64 % 0x40 + 0x80),
        UInt8.ofNat (c.toNat % 0x40 + 0x80)] :=
  (if_neg (show ¬ c.toNat ≤ 0x7F by omega)).trans
    ((if_neg (show ¬ c.toNat ≤ 0x7FF by omega)).trans (if_pos (show c.toNat ≤ 0xFFFF by omega)))

theorem utf8EncodeChar_four {c : Char} (h : 0x10000 ≤ c.toNat) :
    String.utf8EncodeChar c =
      [UInt8.ofNat (c.toNat / 262144 % 0x08 + 0xF0), UInt8.ofNat (c.toNat / 4096 % 0x40 + 0x80),
        UInt8.ofNat (c.toNat / 64 % 0x40 + 0x80), UInt8.ofNat (c.toNat % 0x40 + 0x80)] :=
  (if_neg (show ¬ c.toNat ≤ 0x7F by omega)).trans
    ((if_neg (show ¬ c.toNat ≤ 0x7FF by omega)).trans (if_neg (show ¬ c.toNat ≤ 0xFFFF by omega)))

/-- A scalar value is no surrogate half and at most 0x10FFFF. -/
theorem toNat_char (c : Char) : c.toNat < 0xD800 ∨ 0xDFFF < c.toNat ∧ c.toNat < 0x110000 := c.valid

/-- Any other number belongs to a character. -/
theorem exists_char {n : Nat} (h : n < 0xD800 ∨ 0xDFFF < n ∧ n < 0x110000) :
    ∃ c : Char, c.toNat = n := by
  refine ⟨Char.ofNat n, ?_⟩
  rw [Char.ofNat, dif_pos h]
  rfl

-- ---------------------------------------------------------------------------
-- One sequence
-- ---------------------------------------------------------------------------

/-- The code point that a sequence of `len` bytes at the start of a text stands for, before the
checks on it. -/
def codePoint : (len : Nat) → (b : Nat → Nat) → Nat
  | 0, _ => 0
  | 1, b => b 0
  | 2, b => b 0 % 0x20 * 64 + b 1 % 0x40
  | 3, b => (b 0 % 0x10 * 64 + b 1 % 0x40) * 64 + b 2 % 0x40
  | _, b => ((b 0 % 0x8 * 64 + b 1 % 0x40) * 64 + b 2 % 0x40) * 64 + b 3 % 0x40

/-- A sequence is valid when its first byte gives its length, the others continue it, and its code
point is a scalar value that needs that length. -/
theorem verifyUtf8Sequence_eq_some {s : Text} {len : Nat} :
    verifyUtf8Sequence s = some len ↔
      (len = numBytesInUtf8Sequence (s.getD 0 0) ∧ 0 < len) ∧
      (∀ i < len, 0 < i → isCont (s.getD i 0) = true) ∧
      let cp := codePoint len fun i => (s.getD i 0).toNat
      (2 ≤ len → 0x80 ≤ cp) ∧ (3 ≤ len → 0x800 ≤ cp) ∧ (4 ≤ len → 0x10000 ≤ cp) ∧
        (cp < 0xD800 ∨ 0xDFFF < cp ∧ cp < 0x110000) := by
  simp only [verifyUtf8Sequence, (toNat_and_low _).1, (toNat_and_low _).2.1,
    (toNat_and_low _).2.2.1, (toNat_and_low _).2.2.2]
  generalize hn : numBytesInUtf8Sequence (s.getD 0 0) = n
  have hle : n ≤ 4 := by
    rw [← hn, numBytesInUtf8Sequence_eq]
    grind
  -- the code point is there when the bytes behind the first continue the sequence
  have hcp : (if n = 1 then some (s.getD 0 0).toNat
      else if n = 2 ∧ isCont (s.getD 1 0) = true then
        some ((s.getD 0 0).toNat % 0x20 * 64 + (s.getD 1 0).toNat % 0x40)
      else if n = 3 ∧ isCont (s.getD 1 0) = true ∧ isCont (s.getD 2 0) = true then
        some (((s.getD 0 0).toNat % 0x10 * 64 + (s.getD 1 0).toNat % 0x40) * 64 +
          (s.getD 2 0).toNat % 0x40)
      else if n = 4 ∧ isCont (s.getD 1 0) = true ∧ isCont (s.getD 2 0) = true ∧
          isCont (s.getD 3 0) = true then
        some ((((s.getD 0 0).toNat % 0x8 * 64 + (s.getD 1 0).toNat % 0x40) * 64 +
          (s.getD 2 0).toNat % 0x40) * 64 + (s.getD 3 0).toNat % 0x40)
      else none) =
      if 0 < n ∧ ∀ i < n, 0 < i → isCont (s.getD i 0) = true then
        some (codePoint n fun i => (s.getD i 0).toNat) else none := by
    obtain rfl | rfl | rfl | rfl | rfl : n = 0 ∨ n = 1 ∨ n = 2 ∨ n = 3 ∨ n = 4 := by omega
    · simp
    all_goals
      simp only [forall_behind]
      simp [codePoint]
  rw [hcp]
  by_cases hok : 0 < n ∧ ∀ i < n, 0 < i → isCont (s.getD i 0) = true
  · rw [if_pos hok]
    dsimp only
    constructor
    · intro h
      obtain rfl : n = len := by grind
      exact ⟨⟨rfl, hok.1⟩, hok.2, by grind⟩
    · rintro ⟨⟨rfl, -⟩, -, hcp⟩
      rw [if_neg (by omega), if_neg (by omega), if_neg (by omega)]
  · rw [if_neg hok]
    refine iff_of_false (Option.some_ne_none len).symm ?_
    rintro ⟨⟨rfl, hpos⟩, hcont, -⟩
    exact hok ⟨hpos, hcont⟩

/-- The front of a text, byte by byte. -/
theorem take_eq_map_getD {s : Text} {len : Nat} (h : len ≤ s.length) :
    s.take len = (List.range len).map fun i => s.getD i 0 := by
  refine List.ext_getElem (by simpa using h) fun i hi _ => ?_
  rw [List.length_take] at hi
  simp [List.getElem?_eq_getElem (show i < s.length by omega)]

theorem ofNat_eq {n : Nat} {b : UInt8} (h : n = b.toNat) : UInt8.ofNat n = b := by
  rw [h, UInt8.ofNat_toNat]

section Sequence

variable {s : Text} {len : Nat}

/-- The encoding of a character is a valid sequence, whatever follows it. -/
theorem verifyUtf8Sequence_utf8EncodeChar (c : Char) (t : Text) :
    verifyUtf8Sequence (String.utf8EncodeChar c ++ t) = some (String.utf8EncodeChar c).length := by
  have hscalar := toNat_char c
  rw [verifyUtf8Sequence_eq_some, eq_numBytesInUtf8Sequence_iff]
  obtain h | h | h | h : c.toNat < 0x80 ∨ (0x80 ≤ c.toNat ∧ c.toNat < 0x800) ∨
      (0x800 ≤ c.toNat ∧ c.toNat < 0x10000) ∨ 0x10000 ≤ c.toNat := by omega
  · rw [utf8EncodeChar_one h]
    simp [codePoint]
    omega
  · rw [utf8EncodeChar_two h.1 h.2]
    simp only [List.length_cons, List.length_nil, Nat.zero_add, Nat.reduceAdd, forall_behind]
    simp [codePoint, isCont_iff]
    omega
  · rw [utf8EncodeChar_three h.1 h.2]
    simp only [List.length_cons, List.length_nil, Nat.zero_add, Nat.reduceAdd, forall_behind]
    simp [codePoint, isCont_iff]
    omega
  · rw [utf8EncodeChar_four h]
    simp only [List.length_cons, List.length_nil, Nat.zero_add, Nat.reduceAdd, forall_behind]
    simp [codePoint, isCont_iff]
    omega

/-- The bytes of a valid sequence are the encoding of its code point. -/
theorem utf8EncodeChar_eq_take (hs : s ≠ []) (h : verifyUtf8Sequence s = some len) :
    len ≤ s.length ∧ ∃ c : Char, String.utf8EncodeChar c = s.take len := by
  obtain ⟨hlead, hcont, h₂, h₃, h₄, hscalar⟩ := verifyUtf8Sequence_eq_some.mp h
  have hlong : len ≤ s.length := (verifyUtf8Sequence_append hs h []).1
  obtain ⟨c, hc⟩ := exists_char hscalar
  rw [← hc] at h₂ h₃ h₄
  refine ⟨hlong, c, ?_⟩
  rw [take_eq_map_getD hlong]
  rw [eq_numBytesInUtf8Sequence_iff] at hlead
  simp only [isCont_iff] at hcont
  obtain ⟨rfl, hb⟩ | ⟨rfl, hb⟩ | ⟨rfl, hb⟩ | ⟨rfl, hb⟩ := hlead
  · simp only [codePoint] at hc
    rw [utf8EncodeChar_one (by omega)]
    exact congrArg (fun b => [b]) (ofNat_eq hc)
  · have hb₁ := hcont 1 (by decide) (by decide)
    simp only [codePoint] at hc
    rw [utf8EncodeChar_two (by omega) (by omega)]
    simp only [List.range, List.range.loop, List.map_cons, List.map_nil, List.cons.injEq, and_true]
    exact ⟨ofNat_eq (by omega), ofNat_eq (by omega)⟩
  · have hb₁ := hcont 1 (by decide) (by decide)
    have hb₂ := hcont 2 (by decide) (by decide)
    simp only [codePoint] at hc
    rw [utf8EncodeChar_three (by omega) (by omega)]
    simp only [List.range, List.range.loop, List.map_cons, List.map_nil, List.cons.injEq, and_true]
    exact ⟨ofNat_eq (by omega), ofNat_eq (by omega), ofNat_eq (by omega)⟩
  · have hb₁ := hcont 1 (by decide) (by decide)
    have hb₂ := hcont 2 (by decide) (by decide)
    have hb₃ := hcont 3 (by decide) (by decide)
    simp only [codePoint] at hc
    rw [utf8EncodeChar_four (by omega)]
    simp only [List.range, List.range.loop, List.map_cons, List.map_nil, List.cons.injEq, and_true]
    exact ⟨ofNat_eq (by omega), ofNat_eq (by omega), ofNat_eq (by omega), ofNat_eq (by omega)⟩

end Sequence

-- ---------------------------------------------------------------------------
-- Whole texts
-- ---------------------------------------------------------------------------

/-- The loop accepts encodings of characters only. -/
theorem exists_of_validUtf8From {k : Nat} {s : Text} (h : validUtf8From k s = true) :
    ∃ cs : List Char, s = cs.flatMap String.utf8EncodeChar := by
  induction k generalizing s with
  | zero =>
    cases s with
    | nil => exact ⟨[], rfl⟩
    | cons b s => cases h
  | succ k ih =>
    cases s with
    | nil => exact ⟨[], rfl⟩
    | cons b s =>
      rw [validUtf8From] at h
      cases hseq : verifyUtf8Sequence (b :: s) with
      | none => simp only [hseq] at h; cases h
      | some len =>
        simp only [hseq] at h
        obtain ⟨-, c, hc⟩ := utf8EncodeChar_eq_take (List.cons_ne_nil b s) hseq
        obtain ⟨cs, hcs⟩ := ih h
        refine ⟨c :: cs, ?_⟩
        rw [List.flatMap_cons, ← hcs, hc, List.take_append_drop]

theorem isValidUtf8_utf8EncodeChar (c : Char) : isValidUtf8 (String.utf8EncodeChar c) = true := by
  have hseq := verifyUtf8Sequence_utf8EncodeChar c []
  rw [List.append_nil] at hseq
  obtain ⟨b, s, hbytes⟩ := List.exists_cons_of_ne_nil (String.utf8EncodeChar_ne_nil (c := c))
  rw [isValidUtf8, hbytes, List.length_cons, validUtf8From, ← hbytes]
  simp only [hseq, List.drop_length]
  cases s.length <;> rfl

/-- `is_valid_utf8` accepts exactly the texts that encode a sequence of Unicode characters. -/
theorem isValidUtf8_iff (s : Text) :
    isValidUtf8 s = true ↔ ∃ cs : List Char, s = cs.flatMap String.utf8EncodeChar := by
  refine ⟨exists_of_validUtf8From, ?_⟩
  rintro ⟨cs, rfl⟩
  induction cs with
  | nil => rfl
  | cons c cs ih =>
    rw [List.flatMap_cons]
    exact isValidUtf8_append (isValidUtf8_utf8EncodeChar c) ih

end Zigbee
