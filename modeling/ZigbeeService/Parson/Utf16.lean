-- SUMMARY: A string of `\u` escapes is read when it is well-formed UTF-16, and as the UTF-8 of the same characters.
import ZigbeeService.Parson.Strings

/-!
# From UTF-16 to UTF-8

A string that is written in `\u` escapes alone is a sequence of 16-bit units. Parson accepts exactly
the sequences that encode characters, and what it stores is their UTF-8.
-/

namespace Zigbee

open CLib

/-- The units of a character: the character itself, or a surrogate pair. -/
def utf16Encode (c : Char) : List Nat :=
  if c.toNat < 0x10000 then [c.toNat]
  else [0xD800 + (c.toNat - 0x10000) / 0x400, 0xDC00 + (c.toNat - 0x10000) % 0x400]

/-- The escape of a unit, given its digits. -/
def unitEscape (digits : Text) : Text := chr '\\' :: chr 'u' :: digits

/-- Four digits have one value. -/
theorem Hex4.unique {t : Text} {m n : Nat} (hm : Hex4 t m) (hn : Hex4 t n) : m = n :=
  Option.some_inj.mp (hm.2.symm.trans hn.2)

/-- The first four digits of a text. -/
theorem Hex4.append_inj {t t' rest rest' : Text} {m n : Nat} (hm : Hex4 t m) (hn : Hex4 t' n)
    (h : t ++ rest = t' ++ rest') : t = t' ∧ rest = rest' ∧ m = n := by
  obtain ⟨rfl, rfl⟩ := List.append_inj h (hm.1.trans hn.1.symm)
  exact ⟨rfl, rfl, hm.unique hn⟩

section Units

variable {digits : List Text} {units : List Nat} {out : Text}

theorem balanced_units (h : List.Forall₂ Hex4 digits units) :
    Balanced (digits.flatMap unitEscape) := by
  induction h with
  | nil => exact .nil
  | cons hhex _ ih => exact .escape (ih.append_plain hhex.plain)

/-- The escapes of the units of characters are a string of the encodings of these characters. -/
theorem escaped_of_utf16 {cs : List Char} (h : List.Forall₂ Hex4 digits (cs.flatMap utf16Encode)) :
    Escaped (digits.flatMap unitEscape) (cs.flatMap String.utf8EncodeChar) := by
  induction cs generalizing digits with
  | nil =>
    cases h
    exact .nil
  | cons c cs ih =>
    rw [List.flatMap_cons, utf16Encode] at h
    by_cases hc : c.toNat < 0x10000
    · rw [if_pos hc] at h
      cases h with
      | cons hhex hrest => exact .cons (.unicode (.basic hhex)) (ih hrest)
    · rw [if_neg hc, List.cons_append, List.forall₂_cons_right_iff] at h
      obtain ⟨hi, digits, hhi, hrest, rfl⟩ := h
      rw [List.singleton_append, List.forall₂_cons_right_iff] at hrest
      obtain ⟨lo, digits, hlo, hrest, rfl⟩ := hrest
      have hpair := CharText.unicode (.pair (Nat.not_lt.mp hc) hhi hlo)
      have hescaped := Escaped.cons hpair (ih hrest)
      simpa [unitEscape] using hescaped

/-- The escape of a character is the escapes of its units. -/
theorem UnicodeEscape.exists_digits {c : Char} {t : Text} (h : UnicodeEscape c t) :
    ∃ digits, List.Forall₂ Hex4 digits (utf16Encode c) ∧ t = digits.flatMap unitEscape := by
  cases h with
  | @basic t hhex =>
    refine ⟨[t], ?_, by simp [unitEscape]⟩
    rw [utf16Encode, if_pos hhex.lt]
    exact .cons hhex .nil
  | @pair hi lo hc hhi hlo =>
    refine ⟨[hi, lo], ?_, by simp [unitEscape]⟩
    rw [utf16Encode, if_neg (Nat.not_lt.mpr hc)]
    exact .cons hhi (.cons hlo .nil)

/-- The escapes that a run of escapes starts with. -/
theorem exists_of_flatMap_eq {first : List Text} {firsts : List Nat} {body : Text}
    (hfirst : List.Forall₂ Hex4 first firsts) (h : List.Forall₂ Hex4 digits units)
    (hbody : digits.flatMap unitEscape = first.flatMap unitEscape ++ body) :
    ∃ digits' units', List.Forall₂ Hex4 digits' units' ∧ units = firsts ++ units' ∧
      body = digits'.flatMap unitEscape := by
  induction hfirst generalizing digits units with
  | nil => exact ⟨digits, units, h, rfl, hbody.symm⟩
  | cons hhex' _ ih =>
    cases h with
    | nil => cases hbody
    | cons hhex hrest =>
      simp only [List.flatMap_cons, unitEscape, List.cons_append, List.append_assoc] at hbody
      have htail := (List.cons.inj (List.cons.inj hbody).2).2
      obtain ⟨-, hrest', heq⟩ := hhex.append_inj hhex' htail
      obtain ⟨digits', units', h', hunits, hbody'⟩ := ih hrest hrest'
      exact ⟨digits', units', h', by rw [heq, hunits, List.cons_append], hbody'⟩

/-- Only the units of characters are accepted. -/
theorem exists_of_escaped_units (h : List.Forall₂ Hex4 digits units)
    (hescaped : Escaped (digits.flatMap unitEscape) out) :
    ∃ cs : List Char, units = cs.flatMap utf16Encode ∧ out = cs.flatMap String.utf8EncodeChar := by
  generalize hbody : digits.flatMap unitEscape = body at hescaped
  induction hescaped generalizing digits units with
  | nil =>
    cases h with
    | nil => exact ⟨[], rfl, rfl⟩
    | cons => cases hbody
  | @cons t bytes body out ht _ ih =>
    cases ht with
    | @unicode c t hescape =>
      obtain ⟨first, hfirst, rfl⟩ := hescape.exists_digits
      obtain ⟨digits', units', h', hunits, hbody'⟩ := exists_of_flatMap_eq hfirst h hbody
      obtain ⟨cs, hcs, hout⟩ := ih h' hbody'.symm
      exact ⟨c :: cs, by rw [hunits, hcs, List.flatMap_cons], by rw [hout, List.flatMap_cons]⟩
    -- a run of `\u` escapes starts with a backslash and a `u`
    | plain _ _ hslash =>
      cases h with
      | nil => cases hbody
      | cons => exact absurd (List.cons.inj hbody).1.symm hslash
    | short hmem =>
      cases h with
      | nil => cases hbody
      | cons =>
        have hu := (List.cons.inj (List.cons.inj hbody).2).1
        exact absurd hu.symm (ne_u_of_mem_shortEscapes hmem)

end Units

/-- What `get_quoted_string` makes of a body whose quotes and escapes are in order. -/
theorem getQuotedString_balanced {body : Text} (hbody : Balanced body) (rest k rest' : Text) :
    getQuotedString (chr '"' :: (body ++ chr '"' :: rest)) = some (k, rest') ↔
      rest' = rest ∧ ∃ out, Escaped body out ∧ k = cstring out := by
  have hskip : skipQuotes (body ++ chr '"' :: rest) = some rest :=
    skipQuotes_eq_some.mpr ⟨body, rfl, hbody⟩
  simp only [getQuotedString, List.head?_cons, if_true, List.tail_cons, hskip,
    Option.map_eq_some_iff, processString_eq_some hbody, Prod.mk.injEq]
  constructor
  · rintro ⟨out, hout, rfl, rfl⟩
    exact ⟨rfl, out, hout, rfl⟩
  · rintro ⟨rfl, out, hout, rfl⟩
    exact ⟨out, hout, rfl, rfl⟩

/-- A string of `\u` escapes is accepted exactly when its units are the UTF-16 of some characters, and
its value is the UTF-8 of these, up to a NUL. -/
theorem getQuotedString_units_iff (digits : List Text) (units : List Nat) (rest k rest' : Text)
    (h : List.Forall₂ Hex4 digits units) :
    getQuotedString (chr '"' :: (digits.flatMap unitEscape ++ chr '"' :: rest)) = some (k, rest') ↔
      rest' = rest ∧ ∃ cs : List Char, units = cs.flatMap utf16Encode ∧
        k = cstring (cs.flatMap String.utf8EncodeChar) := by
  rw [getQuotedString_balanced (balanced_units h)]
  refine and_congr_right fun _ => ?_
  constructor
  · rintro ⟨out, hescaped, rfl⟩
    obtain ⟨cs, hunits, rfl⟩ := exists_of_escaped_units h hescaped
    exact ⟨cs, hunits, rfl⟩
  · rintro ⟨cs, rfl, rfl⟩
    exact ⟨_, escaped_of_utf16 h, rfl⟩

/-- A character outside the basic plane. -/
theorem getQuotedString_pair :
    getQuotedString (chr '"' :: ([lit "D83D", lit "de00"].flatMap unitEscape ++ chr '"' :: lit ",")) =
      some ([0xF0, 0x9F, 0x98, 0x80], lit ",") :=
  (getQuotedString_units_iff _ [0xD83D, 0xDE00] _ _ _
    (.cons ⟨by decide, by decide⟩ (.cons ⟨by decide, by decide⟩ .nil))).mpr
    ⟨rfl, [Char.ofNat 0x1F600], by decide, by decide⟩

end Zigbee
