-- SUMMARY: The escapes of Unicode characters in parson: four hexadecimal digits, or a surrogate pair.
import ZigbeeService.Lib.Number
import ZigbeeService.Parson.Utf8

/-!
# Unicode escapes

`parse_utf16` turns the digits behind `\u` into UTF-8. It decodes exactly the escapes of Unicode
characters, so half a surrogate pair is refused.
-/

namespace Zigbee

open CLib

-- ---------------------------------------------------------------------------
-- The functions of parson.c
-- ---------------------------------------------------------------------------

/-- `hex_char_to_int`; its −1 is `none`. -/
def hexCharToInt (c : UInt8) : Option UInt32 :=
  if chr '0' ≤ c ∧ c ≤ chr '9' then some (c - chr '0').toUInt32
  else if chr 'a' ≤ c ∧ c ≤ chr 'f' then some (c - chr 'a' + 10).toUInt32
  else if chr 'A' ≤ c ∧ c ≤ chr 'F' then some (c - chr 'A' + 10).toUInt32
  else none

/-- `parse_utf16_hex`. -/
def parseUtf16Hex : Text → Option UInt32
  | c₁ :: c₂ :: c₃ :: c₄ :: _ => do
    let x₁ ← hexCharToInt c₁
    let x₂ ← hexCharToInt c₂
    let x₃ ← hexCharToInt c₃
    let x₄ ← hexCharToInt c₄
    pure (x₁ <<< 12 ||| x₂ <<< 8 ||| x₃ <<< 4 ||| x₄)
  | _ => none

/-- The part of `parse_utf16` behind a lead surrogate. -/
def parseTrail (lead : UInt32) : Text → Option (Text × Text)
  | b :: u :: s =>
    if b = chr '\\' ∧ u = chr 'u' then
      match parseUtf16Hex s with
      | none => none
      | some trail =>
        if trail < 0xDC00 ∨ trail > 0xDFFF then none
        else
          let cp := (((lead - 0xD800) &&& 0x3FF) <<< 10 ||| ((trail - 0xDC00) &&& 0x3FF)) + 0x10000
          some ([((cp >>> 18 &&& 0x07) ||| 0xF0).toUInt8, ((cp >>> 12 &&& 0x3F) ||| 0x80).toUInt8,
            ((cp >>> 6 &&& 0x3F) ||| 0x80).toUInt8, ((cp &&& 0x3F) ||| 0x80).toUInt8], s.drop 4)
    else none
  | _ => none

/-- `parse_utf16`, behind the `u`: the bytes it writes, and the text behind the escape. -/
def parseUtf16 (s : Text) : Option (Text × Text) :=
  match parseUtf16Hex s with
  | none => none
  | some cp =>
    if cp < 0x80 then some ([cp.toUInt8], s.drop 4)
    else if cp < 0x800 then
      some ([((cp >>> 6 &&& 0x1F) ||| 0xC0).toUInt8, ((cp &&& 0x3F) ||| 0x80).toUInt8], s.drop 4)
    else if cp < 0xD800 ∨ cp > 0xDFFF then
      some ([((cp >>> 12 &&& 0x0F) ||| 0xE0).toUInt8, ((cp >>> 6 &&& 0x3F) ||| 0x80).toUInt8,
        ((cp &&& 0x3F) ||| 0x80).toUInt8], s.drop 4)
    else if cp ≥ 0xD800 ∧ cp ≤ 0xDBFF then parseTrail cp (s.drop 4)
    -- trail surrogate before lead surrogate
    else none

-- ---------------------------------------------------------------------------
-- Hexadecimal digits
-- ---------------------------------------------------------------------------

/-- Four hexadecimal digits and their value. -/
def Hex4 (t : Text) (n : Nat) : Prop := t.length = 4 ∧ numeralIn 16 t = some n

theorem hexCharToInt_eq (c : UInt8) :
    hexCharToInt c = ((digitVal c).filter (· < 16)).map UInt32.ofNat := by
  revert c
  exact forall_byte (by decide +kernel)

theorem hexCharToInt_eq_some {c : UInt8} {x : UInt32} :
    hexCharToInt c = some x ↔ digitVal c = some x.toNat ∧ x.toNat < 16 := by
  rw [hexCharToInt_eq, Option.map_eq_some_iff]
  constructor
  · rintro ⟨d, hd, rfl⟩
    obtain ⟨hd, hlt⟩ := Option.filter_eq_some_iff.mp hd
    have hlt := of_decide_eq_true hlt
    rw [UInt32.toNat_ofNat', Nat.mod_eq_of_lt (by omega)]
    exact ⟨hd, hlt⟩
  · rintro ⟨hd, hlt⟩
    exact ⟨x.toNat, Option.filter_eq_some_iff.mpr ⟨hd, decide_eq_true hlt⟩, UInt32.ofNat_toNat⟩

/-- Four digits put together. -/
theorem toNat_hex {x₁ x₂ x₃ x₄ : UInt32} (h₁ : x₁.toNat < 16) (h₂ : x₂.toNat < 16)
    (h₃ : x₃.toNat < 16) (h₄ : x₄.toNat < 16) :
    (x₁ <<< 12 ||| x₂ <<< 8 ||| x₃ <<< 4 ||| x₄).toNat =
      x₁.toNat * 4096 + x₂.toNat * 256 + x₃.toNat * 16 + x₄.toNat := by
  have hor : ∀ {a b i : Nat}, b < 2 ^ i → a * 2 ^ i ||| b = a * 2 ^ i + b := by
    intro a b i hb
    rw [← Nat.shiftLeft_eq, Nat.shiftLeft_add_eq_or_of_lt hb]
  have hshift : ∀ {x : UInt32} {k : UInt32}, x.toNat < 16 → k.toNat ≤ 12 →
      (x <<< k).toNat = x.toNat * 2 ^ k.toNat := by
    intro x k hx hk
    have hpow : 2 ^ k.toNat ≤ 2 ^ 12 := Nat.pow_le_pow_right (by decide) hk
    have hmul : x.toNat * 2 ^ k.toNat ≤ 15 * 2 ^ 12 := Nat.mul_le_mul (by omega) hpow
    rw [UInt32.toNat_shiftLeft, Nat.mod_eq_of_lt (a := k.toNat) (by omega), Nat.shiftLeft_eq,
      Nat.mod_eq_of_lt (by omega)]
  rw [UInt32.toNat_or, UInt32.toNat_or, UInt32.toNat_or, hshift h₁ (by decide),
    hshift h₂ (by decide), hshift h₃ (by decide)]
  simp only [UInt32.reduceToNat]
  rw [hor (i := 12) (by omega),
    show x₁.toNat * 2 ^ 12 + x₂.toNat * 2 ^ 8 = (x₁.toNat * 16 + x₂.toNat) * 2 ^ 8 by omega,
    hor (i := 8) (by omega),
    show (x₁.toNat * 16 + x₂.toNat) * 2 ^ 8 + x₃.toNat * 2 ^ 4 =
      ((x₁.toNat * 16 + x₂.toNat) * 16 + x₃.toNat) * 2 ^ 4 by omega, hor (i := 4) (by omega)]
  omega

/-- The four characters are digits, and the value is read off them. -/
theorem hex4_iff {c₁ c₂ c₃ c₄ : UInt8} {n : Nat} :
    Hex4 [c₁, c₂, c₃, c₄] n ↔
      ∃ x₁ x₂ x₃ x₄ : Nat, digitVal c₁ = some x₁ ∧ digitVal c₂ = some x₂ ∧ digitVal c₃ = some x₃ ∧
        digitVal c₄ = some x₄ ∧ x₁ < 16 ∧ x₂ < 16 ∧ x₃ < 16 ∧ x₄ < 16 ∧
        n = x₁ * 4096 + x₂ * 256 + x₃ * 16 + x₄ := by
  rw [Hex4, numeralIn_eq_some]
  constructor
  · rintro ⟨-, -, hall, hval⟩
    simp only [List.forall_mem_cons, Option.any_eq_true, decide_eq_true_eq] at hall
    obtain ⟨⟨x₁, h₁, l₁⟩, ⟨x₂, h₂, l₂⟩, ⟨x₃, h₃, l₃⟩, ⟨x₄, h₄, l₄⟩, -⟩ := hall
    refine ⟨x₁, x₂, x₃, x₄, h₁, h₂, h₃, h₄, l₁, l₂, l₃, l₄, ?_⟩
    rw [← hval]
    simp [h₁, h₂, h₃, h₄, digitsValue, Nat.ofDigits_cons]
    omega
  · rintro ⟨x₁, x₂, x₃, x₄, h₁, h₂, h₃, h₄, l₁, l₂, l₃, l₄, rfl⟩
    refine ⟨rfl, List.cons_ne_nil _ _, ?_, ?_⟩
    · simp [h₁, h₂, h₃, h₄, l₁, l₂, l₃, l₄]
    · simp [h₁, h₂, h₃, h₄, digitsValue, Nat.ofDigits_cons]
      omega

theorem parseUtf16Hex_eq_some {s : Text} {cp : UInt32} :
    parseUtf16Hex s = some cp ↔ ∃ t rest, s = t ++ rest ∧ Hex4 t cp.toNat := by
  constructor
  · intro h
    match s with
    | c₁ :: c₂ :: c₃ :: c₄ :: rest =>
      simp only [parseUtf16Hex, Option.bind_eq_bind, Option.bind_eq_some_iff,
        hexCharToInt_eq_some, Option.pure_def, Option.some_inj] at h
      obtain ⟨x₁, ⟨h₁, l₁⟩, x₂, ⟨h₂, l₂⟩, x₃, ⟨h₃, l₃⟩, x₄, ⟨h₄, l₄⟩, rfl⟩ := h
      exact ⟨[c₁, c₂, c₃, c₄], rest, rfl, hex4_iff.mpr
        ⟨_, _, _, _, h₁, h₂, h₃, h₄, l₁, l₂, l₃, l₄, toNat_hex l₁ l₂ l₃ l₄⟩⟩
    | [] | [_] | [_, _] | [_, _, _] => cases h
  · rintro ⟨t, rest, rfl, h⟩
    obtain ⟨c₁, c₂, c₃, c₄, rfl⟩ := List.length_eq_four.mp h.1
    obtain ⟨x₁, x₂, x₃, x₄, h₁, h₂, h₃, h₄, l₁, l₂, l₃, l₄, hval⟩ := hex4_iff.mp h
    have hdigit : ∀ {c : UInt8} {x : Nat}, digitVal c = some x → x < 16 →
        hexCharToInt c = some (UInt32.ofNat x) ∧ (UInt32.ofNat x).toNat = x := by
      intro c x hc hx
      have hnat : (UInt32.ofNat x).toNat = x := by
        rw [UInt32.toNat_ofNat', Nat.mod_eq_of_lt (by omega)]
      exact ⟨hexCharToInt_eq_some.mpr ⟨by rw [hnat, hc], by omega⟩, hnat⟩
    obtain ⟨e₁, n₁⟩ := hdigit h₁ l₁
    obtain ⟨e₂, n₂⟩ := hdigit h₂ l₂
    obtain ⟨e₃, n₃⟩ := hdigit h₃ l₃
    obtain ⟨e₄, n₄⟩ := hdigit h₄ l₄
    simp only [List.cons_append, parseUtf16Hex, e₁, e₂, e₃, e₄, Option.bind_eq_bind,
      Option.bind_some, Option.pure_def, Option.some_inj]
    rw [← UInt32.toNat_inj, toNat_hex (by omega) (by omega) (by omega) (by omega), hval]
    omega

-- ---------------------------------------------------------------------------
-- Escaped characters
-- ---------------------------------------------------------------------------

/-- The escapes of a character: one group of four digits, or a surrogate pair. -/
inductive UnicodeEscape : Char → Text → Prop where
  | basic {c : Char} {t : Text} : Hex4 t c.toNat → UnicodeEscape c (chr '\\' :: chr 'u' :: t)
  | pair {c : Char} {hi lo : Text} : 0x10000 ≤ c.toNat →
      Hex4 hi (0xD800 + (c.toNat - 0x10000) / 0x400) →
      Hex4 lo (0xDC00 + (c.toNat - 0x10000) % 0x400) →
      UnicodeEscape c (chr '\\' :: chr 'u' :: (hi ++ chr '\\' :: chr 'u' :: lo))

theorem Hex4.lt {t : Text} {n : Nat} (h : Hex4 t n) : n < 0x10000 := by
  obtain ⟨c₁, c₂, c₃, c₄, rfl⟩ := List.length_eq_four.mp h.1
  obtain ⟨x₁, x₂, x₃, x₄, -, -, -, -, l₁, l₂, l₃, l₄, rfl⟩ := hex4_iff.mp h
  omega

theorem Hex4.drop {t : Text} {n : Nat} (h : Hex4 t n) (rest : Text) : (t ++ rest).drop 4 = rest := by
  rw [← h.1, List.drop_left]

/-- The value of four digits that stand at the start of a text. -/
theorem parseUtf16Hex_append {t : Text} {cp : UInt32} (h : Hex4 t cp.toNat) (rest : Text) :
    parseUtf16Hex (t ++ rest) = some cp :=
  parseUtf16Hex_eq_some.mpr ⟨t, rest, rfl, h⟩

/-- The bytes `parse_utf16` writes are the encoding of the character. -/
theorem utf8EncodeChar_eq (c : Char) :
    String.utf8EncodeChar c =
      if c.val < 0x80 then [c.val.toUInt8]
      else if c.val < 0x800 then
        [((c.val >>> 6 &&& 0x1F) ||| 0xC0).toUInt8, ((c.val &&& 0x3F) ||| 0x80).toUInt8]
      else if c.val < 0x10000 then
        [((c.val >>> 12 &&& 0x0F) ||| 0xE0).toUInt8, ((c.val >>> 6 &&& 0x3F) ||| 0x80).toUInt8,
          ((c.val &&& 0x3F) ||| 0x80).toUInt8]
      else
        [((c.val >>> 18 &&& 0x07) ||| 0xF0).toUInt8, ((c.val >>> 12 &&& 0x3F) ||| 0x80).toUInt8,
          ((c.val >>> 6 &&& 0x3F) ||| 0x80).toUInt8, ((c.val &&& 0x3F) ||| 0x80).toUInt8] := by
  have hle : ∀ k : UInt32, k.toNat + 1 < 2 ^ 32 → (c.val < k + 1 ↔ c.val ≤ k) := by
    intro k hk
    rw [UInt32.lt_iff_toNat_lt, UInt32.le_iff_toNat_le, UInt32.toNat_add,
      Nat.mod_eq_of_lt (by simpa using hk)]
    simp
  rw [String.utf8EncodeChar_eq_utf8EncodeCharFast, String.utf8EncodeCharFast]
  have h₁ := hle 0x7F (by decide)
  have h₂ := hle 0x7FF (by decide)
  have h₃ := hle 0xFFFF (by decide)
  simp only [UInt32.reduceAdd] at h₁ h₂ h₃
  simp only [h₁, h₂, h₃, UInt32.toUInt8_or, UInt32.toUInt8_and]
  rfl

/-- The code point that a surrogate pair stands for. -/
theorem toNat_surrogates {lead trail : UInt32} (h₁ : 0xD800 ≤ lead.toNat) (h₂ : lead.toNat ≤ 0xDBFF)
    (h₃ : 0xDC00 ≤ trail.toNat) (h₄ : trail.toNat ≤ 0xDFFF) :
    ((((lead - 0xD800) &&& 0x3FF) <<< 10 ||| ((trail - 0xDC00) &&& 0x3FF)) + 0x10000).toNat =
      (lead.toNat - 0xD800) * 0x400 + (trail.toNat - 0xDC00) + 0x10000 := by
  have hlow : ∀ {x k : UInt32}, k.toNat ≤ x.toNat → x.toNat - k.toNat < 0x400 →
      ((x - k) &&& 0x3FF).toNat = x.toNat - k.toNat := by
    intro x k hle hlt
    have hmask : (0x3FF : UInt32).toNat = 2 ^ 10 - 1 := by decide
    rw [UInt32.toNat_and, hmask, Nat.and_two_pow_sub_one_eq_mod,
      UInt32.toNat_sub_of_le _ _ (UInt32.le_iff_toNat_le.mpr hle), Nat.mod_eq_of_lt hlt]
  have hlead := hlow (x := lead) (k := 0xD800) h₁ (by simp only [UInt32.reduceToNat]; omega)
  have htrail := hlow (x := trail) (k := 0xDC00) h₃ (by simp only [UInt32.reduceToNat]; omega)
  simp only [UInt32.reduceToNat] at hlead htrail
  have hshift : (((lead - 0xD800) &&& 0x3FF) <<< 10).toNat = (lead.toNat - 0xD800) <<< 10 := by
    rw [UInt32.toNat_shiftLeft, hlead]
    simp only [UInt32.reduceToNat, Nat.reduceMod]
    rw [Nat.mod_eq_of_lt]
    rw [Nat.shiftLeft_eq]
    omega
  rw [UInt32.toNat_add, UInt32.toNat_or, hshift, htrail, ← Nat.shiftLeft_add_eq_or_of_lt (by omega),
    Nat.shiftLeft_eq]
  simp only [UInt32.reduceToNat]
  omega

/-- A number that is no surrogate half is a character. -/
theorem exists_char_val (cp : UInt32)
    (h : cp.toNat < 0xD800 ∨ 0xDFFF < cp.toNat ∧ cp.toNat < 0x110000) : ∃ c : Char, c.val = cp :=
  ⟨⟨cp, h⟩, rfl⟩

section Utf16

variable {s bytes rest : Text}

/-- The second half of a pair: the four bytes of the character are written. -/
theorem parseTrail_pair {lead : UInt32} {c : Char} {lo : Text} (hc : 0x10000 ≤ c.toNat)
    (hlead : lead.toNat = 0xD800 + (c.toNat - 0x10000) / 0x400)
    (hlo : Hex4 lo (0xDC00 + (c.toNat - 0x10000) % 0x400)) :
    parseTrail lead (chr '\\' :: chr 'u' :: (lo ++ rest)) =
      some (String.utf8EncodeChar c, rest) := by
  have hscalar := toNat_char c
  obtain ⟨trail, htrail⟩ : ∃ trail : UInt32,
      trail.toNat = 0xDC00 + (c.toNat - 0x10000) % 0x400 :=
    ⟨UInt32.ofNat (0xDC00 + (c.toNat - 0x10000) % 0x400), by
      rw [UInt32.toNat_ofNat', Nat.mod_eq_of_lt (by omega)]⟩
  rw [← htrail] at hlo
  have hcp : (((lead - 0xD800) &&& 0x3FF) <<< 10 ||| ((trail - 0xDC00) &&& 0x3FF)) + 0x10000 =
      c.val := by
    rw [← UInt32.toNat_inj, toNat_surrogates (by omega) (by omega) (by omega) (by omega)]
    change _ = c.toNat
    omega
  have hbounds : ¬ (trail < 0xDC00 ∨ trail > 0xDFFF) := by
    simp only [UInt32.lt_iff_toNat_lt, gt_iff_lt, UInt32.reduceToNat]
    omega
  have hbig : ¬ c.val < 0x80 ∧ ¬ c.val < 0x800 ∧ ¬ c.val < 0x10000 := by
    simp only [UInt32.lt_iff_toNat_lt, UInt32.reduceToNat]
    change ¬ c.toNat < _ ∧ ¬ c.toNat < _ ∧ ¬ c.toNat < _
    omega
  simp only [parseTrail, and_self, if_true, parseUtf16Hex_append hlo, if_neg hbounds, hcp,
    hlo.drop, utf8EncodeChar_eq, if_neg hbig.1, if_neg hbig.2.1, if_neg hbig.2.2]

/-- Behind a lead surrogate only a trail surrogate is taken. -/
theorem exists_of_parseTrail {lead : UInt32} (h₁ : 0xD800 ≤ lead.toNat)
    (h₂ : lead.toNat ≤ 0xDBFF) (h : parseTrail lead s = some (bytes, rest)) :
    ∃ (c : Char) (lo : Text), s = chr '\\' :: chr 'u' :: (lo ++ rest) ∧ 0x10000 ≤ c.toNat ∧
      lead.toNat = 0xD800 + (c.toNat - 0x10000) / 0x400 ∧
      Hex4 lo (0xDC00 + (c.toNat - 0x10000) % 0x400) ∧ bytes = String.utf8EncodeChar c := by
  match s with
  | b :: u :: s =>
    have hrun := h
    rw [parseTrail] at h
    split at h
    · next hbu =>
      obtain ⟨rfl, rfl⟩ := hbu
      cases hhex : parseUtf16Hex s with
      | none => simp only [hhex] at h; cases h
      | some trail =>
        obtain ⟨lo, rest', rfl, hlo⟩ := parseUtf16Hex_eq_some.mp hhex
        by_cases hbounds : trail < 0xDC00 ∨ trail > 0xDFFF
        · simp only [hhex, if_pos hbounds] at h
          cases h
        · simp only [UInt32.lt_iff_toNat_lt, gt_iff_lt, UInt32.reduceToNat] at hbounds
          obtain ⟨c, hc⟩ := exists_char
            (n := (lead.toNat - 0xD800) * 0x400 + (trail.toNat - 0xDC00) + 0x10000) (by omega)
          have hlead : lead.toNat = 0xD800 + (c.toNat - 0x10000) / 0x400 := by omega
          have htrail : trail.toNat = 0xDC00 + (c.toNat - 0x10000) % 0x400 := by omega
          rw [htrail] at hlo
          rw [parseTrail_pair (by omega) hlead hlo] at hrun
          obtain ⟨rfl, rfl⟩ := Prod.mk.inj (Option.some_inj.mp hrun)
          exact ⟨c, lo, rfl, by omega, hlead, hlo, rfl⟩
    · cases h
  | [] | [_] => cases h

/-- One group of four digits: the bytes of the character are written. -/
theorem parseUtf16_basic {c : Char} {t : Text} (h : Hex4 t c.toNat) :
    parseUtf16 (t ++ rest) = some (String.utf8EncodeChar c, rest) := by
  have hscalar := toNat_char c
  have hlt := h.lt
  have hhex : parseUtf16Hex (t ++ rest) = some c.val := parseUtf16Hex_append h rest
  have hone : c.val < 0x10000 := UInt32.lt_iff_toNat_lt.mpr hlt
  have hvalid : c.val < 0xD800 ∨ c.val > 0xDFFF := by
    simp only [UInt32.lt_iff_toNat_lt, gt_iff_lt, UInt32.reduceToNat]
    change c.toNat < _ ∨ _ < c.toNat
    omega
  simp only [parseUtf16, hhex, h.drop, utf8EncodeChar_eq, if_pos hone, if_pos hvalid]
  split_ifs <;> rfl

/-- Two groups of four digits, a lead and a trail surrogate. -/
theorem parseUtf16_pair {c : Char} {hi lo : Text} (hc : 0x10000 ≤ c.toNat)
    (hhi : Hex4 hi (0xD800 + (c.toNat - 0x10000) / 0x400))
    (hlo : Hex4 lo (0xDC00 + (c.toNat - 0x10000) % 0x400)) :
    parseUtf16 (hi ++ chr '\\' :: chr 'u' :: (lo ++ rest)) =
      some (String.utf8EncodeChar c, rest) := by
  have hscalar := toNat_char c
  obtain ⟨lead, hlead⟩ : ∃ lead : UInt32,
      lead.toNat = 0xD800 + (c.toNat - 0x10000) / 0x400 :=
    ⟨UInt32.ofNat (0xD800 + (c.toNat - 0x10000) / 0x400), by
      rw [UInt32.toNat_ofNat', Nat.mod_eq_of_lt (by omega)]⟩
  rw [← hlead] at hhi
  have hbounds : ¬ lead < 0x80 ∧ ¬ lead < 0x800 ∧ ¬ (lead < 0xD800 ∨ lead > 0xDFFF) ∧
      (lead ≥ 0xD800 ∧ lead ≤ 0xDBFF) := by
    simp only [UInt32.lt_iff_toNat_lt, UInt32.le_iff_toNat_le, gt_iff_lt, ge_iff_le,
      UInt32.reduceToNat]
    omega
  simp only [parseUtf16, parseUtf16Hex_append hhi, if_neg hbounds.1, if_neg hbounds.2.1,
    if_neg hbounds.2.2.1, if_pos hbounds.2.2.2, hhi.drop, parseTrail_pair hc hlead hlo]

/-- What `parse_utf16` decodes is the escape of a character. -/
theorem exists_of_parseUtf16 (h : parseUtf16 s = some (bytes, rest)) :
    ∃ c t, chr '\\' :: chr 'u' :: s = t ++ rest ∧ UnicodeEscape c t ∧
      bytes = String.utf8EncodeChar c := by
  cases hhex : parseUtf16Hex s with
  | none => simp only [parseUtf16, hhex] at h; cases h
  | some cp =>
    obtain ⟨t, rest', rfl, ht⟩ := parseUtf16Hex_eq_some.mp hhex
    by_cases hvalid : cp.toNat < 0xD800 ∨ 0xDFFF < cp.toNat
    · obtain ⟨c, rfl⟩ := exists_char_val cp (by have := ht.lt; omega)
      rw [parseUtf16_basic ht] at h
      obtain ⟨rfl, rfl⟩ := Prod.mk.inj (Option.some_inj.mp h)
      exact ⟨c, _, rfl, .basic ht, rfl⟩
    · have hbounds : ¬ cp < 0x80 ∧ ¬ cp < 0x800 ∧ ¬ (cp < 0xD800 ∨ cp > 0xDFFF) := by
        simp only [UInt32.lt_iff_toNat_lt, gt_iff_lt, UInt32.reduceToNat]
        omega
      simp only [parseUtf16, hhex, if_neg hbounds.1, if_neg hbounds.2.1, if_neg hbounds.2.2,
        ht.drop] at h
      split at h
      · next hlead =>
        simp only [UInt32.le_iff_toNat_le, ge_iff_le, UInt32.reduceToNat] at hlead
        obtain ⟨c, lo, rfl, hc, hval, hlo, rfl⟩ := exists_of_parseTrail hlead.1 hlead.2 h
        rw [hval] at ht
        exact ⟨c, _, by simp, .pair hc ht hlo, rfl⟩
      · cases h

/-- `parse_utf16` decodes the escapes of Unicode characters, and nothing else. -/
theorem parseUtf16_eq_some :
    parseUtf16 s = some (bytes, rest) ↔
      ∃ c t, chr '\\' :: chr 'u' :: s = t ++ rest ∧ UnicodeEscape c t ∧
        bytes = String.utf8EncodeChar c := by
  refine ⟨exists_of_parseUtf16, ?_⟩
  rintro ⟨c, t, ht, hescape, rfl⟩
  cases hescape with
  | basic h =>
    obtain rfl : s = _ := by simpa using ht
    exact parseUtf16_basic h
  | pair hc hhi hlo =>
    obtain rfl : s = _ := by simpa using ht
    exact parseUtf16_pair hc hhi hlo

end Utf16

end Zigbee
