-- SUMMARY: Parson parses back what it serializes, and what it parses can be serialized.
import ZigbeeService.Parson.Serialize

/-!
# Round trips of documents

The text of a document spells it, so the parser gives the document back as long as it is not nested
too deeply. The other way round a parsed document is one that can be serialized.
-/

namespace Zigbee

open CLib

-- ---------------------------------------------------------------------------
-- Strings
-- ---------------------------------------------------------------------------

theorem digitVal_hexDigit {n : Nat} (h : n < 16) : digitVal (hexDigit n) = some n := by
  have hall : ∀ n < 16, digitVal (hexDigit n) = some n := by decide
  exact hall n h

/-- A control character as it is escaped. -/
theorem hex4_control {c : UInt8} (h : c < 0x20) :
    Hex4 [chr '0', chr '0', hexDigit (c.toNat / 16), hexDigit (c.toNat % 16)] c.toNat := by
  have hlt : c.toNat < 0x20 := by simpa [UInt8.lt_iff_toNat_lt] using h
  have hzero : digitVal (chr '0') = some 0 := by decide
  exact hex4_iff.mpr ⟨0, 0, c.toNat / 16, c.toNat % 16, hzero, hzero,
    digitVal_hexDigit (by omega), digitVal_hexDigit (by omega), by omega, by omega, by omega,
    by omega, by omega⟩

/-- Every character is written as the grammar has it. -/
theorem charText_escapeText (c : UInt8) : CharText ((escapeText c).getD [c]) [c] := by
  unfold escapeText
  split_ifs with hquote hslash hb hf hn hr ht hlow
  · subst hquote
    exact .short (by decide)
  · subst hslash
    exact .short (by decide)
  · subst hb
    exact .short (by decide)
  · subst hf
    exact .short (by decide)
  · subst hn
    exact .short (by decide)
  · subst hr
    exact .short (by decide)
  · subst ht
    exact .short (by decide)
  · have hlt : c.toNat < 0x20 := by simpa [UInt8.lt_iff_toNat_lt] using hlow
    obtain ⟨u, hu⟩ := exists_char (n := c.toNat) (.inl (by omega))
    have hbytes : String.utf8EncodeChar u = [c] := by
      rw [utf8EncodeChar_one (by omega), hu, UInt8.ofNat_toNat]
    rw [← hbytes]
    exact .unicode (.basic (hu ▸ hex4_control hlow))
  · exact .plain (UInt8.not_lt.mp hlow) hquote hslash

/-- A C string in quotes stands for itself. -/
theorem quoted_quoteText {s : Text} (h : 0 ∉ s) : Quoted s (quoteText s) := by
  refine ⟨s.flatMap fun c => (escapeText c).getD [c], s, ?_, (cstring_eq h).symm, rfl⟩
  clear h
  induction s with
  | nil => exact .nil
  | cons c s ih => exact .cons (charText_escapeText c) ih

-- ---------------------------------------------------------------------------
-- Items
-- ---------------------------------------------------------------------------

theorem spaces_append {s t : Text} (hs : Spaces s) (ht : Spaces t) : Spaces (s ++ t) :=
  List.forall_mem_append.mpr ⟨hs, ht⟩

theorem spaces_when {b : Bool} {s : Text} (hs : Spaces s) : Spaces (if b then s else []) := by
  cases b with
  | true => exact hs
  | false => exact spaces_nil

theorem spaces_indentText (level : Nat) : Spaces (indentText level) := by
  intro c hc
  obtain ⟨-, -, hmem⟩ := List.mem_flatMap.mp hc
  have hspaces : lit "    " = List.replicate 4 (chr ' ') := by decide
  rw [hspaces] at hmem
  rw [List.eq_of_mem_replicate hmem]
  decide

theorem spaces_newline : Spaces [10] := List.forall_mem_singleton.mpr (by decide)

/-- The lines between two brackets are separated items, with white space on both sides. -/
theorem separated_itemsText {α : Type} {R : α → Text → Prop} {text : α → Text} (pretty : Bool)
    (level : Nat) {as : List α} (h : ∀ a ∈ as, R a (text a)) (hne : as ≠ []) {wsEnd : Text}
    (hend : Spaces wsEnd) :
    ∃ ws ts, Spaces ws ∧ itemsText pretty level (as.map text) ++ wsEnd = ws ++ ts ∧
      Separated R as ts := by
  induction as with
  | nil => exact absurd rfl hne
  | cons a as ih =>
    rw [List.forall_mem_cons] at h
    have hindent : Spaces (if pretty then indentText (level + 1) else []) :=
      spaces_when (spaces_indentText _)
    have hline : Spaces (if pretty then [10] else []) := spaces_when spaces_newline
    cases as with
    | nil =>
      refine ⟨_, _, hindent, ?_, .last h.1 (spaces_append hline hend)⟩
      simp [itemsText]
    | cons a' as =>
      obtain ⟨ws, ts, hws, hsplit, hsep⟩ := ih h.2 (List.cons_ne_nil _ _)
      refine ⟨_, _, hindent, ?_, .more h.1 spaces_nil (spaces_append hline hws) hsep⟩
      rw [List.map_cons, itemsText]
      simp only [List.map_cons, List.isEmpty_cons, Bool.not_false, if_true, List.append_assoc,
        List.nil_append, List.cons_append]
      rw [← List.map_cons, hsplit]

/-- The texts of items between brackets. -/
theorem bracketed_bracketedText {α : Type} {R : α → Text → Prop} {text : α → Text}
    (opening closing : UInt8) (pretty : Bool) (level : Nat) {as : List α}
    (h : ∀ a ∈ as, R a (text a)) :
    Bracketed opening closing R as (bracketedText opening closing pretty level (as.map text)) := by
  by_cases hne : as = []
  · subst hne
    exact .empty spaces_nil
  · have hempty : (as.map text).isEmpty = false := by
      simpa using hne
    have hend : Spaces (if pretty then indentText level else []) :=
      spaces_when (spaces_indentText _)
    obtain ⟨ws, ts, hws, hsplit, hsep⟩ := separated_itemsText pretty level h hne hend
    have hline : Spaces (if pretty then [10] else []) := spaces_when spaces_newline
    have htext : bracketedText opening closing pretty level (as.map text) =
        opening :: ((if pretty then [10] else []) ++ ws ++ (ts ++ [closing])) := by
      simp only [bracketedText, hempty, Bool.not_false, Bool.true_and, List.singleton_append]
      rw [← List.append_assoc (itemsText _ _ _), hsplit]
      simp only [List.append_assoc]
    rw [htext]
    exact .items (spaces_append hline hws) hsep

-- ---------------------------------------------------------------------------
-- Documents
-- ---------------------------------------------------------------------------

/-- A number that is printed as `strtod` reads it back. -/
structure Doubles.Exact (d : Doubles) (x : Rat) : Prop extends d.Fits x where
  reads : NumberText d x (d.printf x)

theorem WellFormed.mono {P Q : Rat → Prop} (hPQ : ∀ x, P x → Q x) {levels : Nat} {v : Json}
    (h : WellFormed P levels v) : WellFormed Q levels v := by
  induction levels generalizing v with
  | zero => exact h
  | succ levels ih =>
    cases v with
    | null => trivial
    | boolean b => trivial
    | number x => exact hPQ x h
    | string s => exact h
    | array items => exact fun v hv => ih (h v hv)
    | object ms => exact ⟨h.1, fun m hm => ⟨(h.2 m hm).1, ih (h.2 m hm).2⟩⟩

section Text

variable {d : Doubles} {levels : Nat} {v : Json}

/-- The text of a document spells it. -/
theorem spells_jsonText (h : WellFormed d.Exact levels v) (pretty : Bool) (level : Nat) :
    Spells d levels v (jsonText d pretty v level) := by
  induction levels generalizing v level with
  | zero => exact h.elim
  | succ levels ih =>
    cases v with
    | null => rw [jsonText]; rfl
    | boolean b => rw [jsonText]; rfl
    | number x => rw [jsonText]; exact h.reads
    | string s => rw [jsonText]; exact quoted_quoteText h
    | array items =>
      rw [jsonText, itemTexts_eq_map]
      exact bracketed_bracketedText _ _ pretty level fun v hv => ih (h v hv) _
    | object ms =>
      rw [jsonText, memberTexts_eq_map]
      refine ⟨h.1, bracketed_bracketedText _ _ pretty level fun m hm => ?_⟩
      obtain ⟨hname, hvalue⟩ := h.2 m hm
      have hspace : Spaces (if pretty then [chr ' '] else []) :=
        spaces_when (List.forall_mem_singleton.mpr (by decide))
      exact @MemberText.mk _ _ _ _ [] (if pretty then [chr ' '] else []) _
        (quoted_quoteText hname) spaces_nil hspace (ih hvalue _)

/-- Only well-formed documents are spelled, and their numbers are ones that `strtod` reads. -/
theorem wellFormed_of_spells {t : Text} (h : Spells d levels v t) :
    WellFormed (fun x => ∃ t, NumberText d x t) levels v := by
  induction levels generalizing v t with
  | zero => exact h
  | succ levels ih =>
    cases v with
    | null => trivial
    | boolean b => trivial
    | number x => exact ⟨t, h⟩
    | string s =>
      obtain ⟨body, out, -, rfl, -⟩ := h
      exact nul_notMem_cstring out
    | array items =>
      intro v hv
      obtain ⟨t, ht⟩ := h.exists_text hv
      exact ih ht
    | object ms =>
      refine ⟨h.1, fun m hm => ?_⟩
      obtain ⟨t, ht⟩ := h.2.exists_text hm
      cases ht with
      | mk hquoted _ _ hvalue =>
        obtain ⟨body, out, -, rfl, -⟩ := hquoted
        exact ⟨nul_notMem_cstring out, ih hvalue⟩

end Text

-- ---------------------------------------------------------------------------
-- Depth
-- ---------------------------------------------------------------------------

mutual

/-- The levels of a document: one for a value and one for each array or object around it. -/
def jsonLevels : Json → Nat
  | .array items => itemLevels items + 1
  | .object ms => memberLevels ms + 1
  | _ => 1

/-- The most levels of an item. -/
def itemLevels : List Json → Nat
  | [] => 0
  | v :: items => max (jsonLevels v) (itemLevels items)

/-- The most levels of a member's value. -/
def memberLevels : List (Text × Json) → Nat
  | [] => 0
  | (_, v) :: ms => max (jsonLevels v) (memberLevels ms)

end

theorem itemLevels_le_iff {items : List Json} {n : Nat} :
    itemLevels items ≤ n ↔ ∀ v ∈ items, jsonLevels v ≤ n := by
  induction items with
  | nil => simp [itemLevels]
  | cons v items ih => rw [itemLevels, max_le_iff, ih, List.forall_mem_cons]

theorem memberLevels_le_iff {ms : Members} {n : Nat} :
    memberLevels ms ≤ n ↔ ∀ m ∈ ms, jsonLevels m.2 ≤ n := by
  induction ms with
  | nil => simp [memberLevels]
  | cons m ms ih => rw [memberLevels, max_le_iff, ih, List.forall_mem_cons]

/-- A well-formed document is one at exactly the depths that its levels fit. -/
theorem wellFormed_iff_levels_le {P : Rat → Prop} {levels n : Nat} {v : Json}
    (h : WellFormed P levels v) : WellFormed P n v ↔ jsonLevels v ≤ n := by
  induction levels generalizing v n with
  | zero => exact h.elim
  | succ levels ih =>
    cases n with
    | zero =>
      refine iff_of_false id (Nat.not_le.mpr ?_)
      cases v <;> simp [jsonLevels]
    | succ n =>
      cases v with
      | null => exact iff_of_true trivial (by simp [jsonLevels])
      | boolean b => exact iff_of_true trivial (by simp [jsonLevels])
      | number x => exact iff_of_true h (by simp [jsonLevels])
      | string s => exact iff_of_true h (by simp [jsonLevels])
      | array items =>
        rw [jsonLevels, Nat.add_le_add_iff_right, itemLevels_le_iff]
        exact forall₂_congr fun v hv => ih (h v hv)
      | object ms =>
        rw [jsonLevels, Nat.add_le_add_iff_right, memberLevels_le_iff]
        obtain ⟨hnodup, hms⟩ := h
        constructor
        · exact fun hn m hm => (ih (hms m hm).2).mp (hn.2 m hm).2
        · exact fun hn => ⟨hnodup, fun m hm => ⟨(hms m hm).1, (ih (hms m hm).2).mpr (hn m hm)⟩⟩

-- ---------------------------------------------------------------------------
-- Whole numbers
-- ---------------------------------------------------------------------------

/-- A delimiter is no digit. -/
theorem scanDigits_delimits {rest : Text} (h : Delimits rest) : scanDigits 10 rest = [] := by
  cases rest with
  | nil => rfl
  | cons c cs =>
    have hall : ∀ c : UInt8, (isspace c = true ∨ c = chr ',' ∨ c = chr ']' ∨ c = chr '}') →
        ¬ (digitVal c).any (· < 10) = true := forall_byte (by decide +kernel)
    by_contra hne
    exact hall c (h c cs rfl) (scanDigits_cons_ne_nil.mp hne)

/-- The digits at the start of a text, with a delimiter behind them. -/
theorem scanDigits_take_append {s rest : Text} (hrest : Delimits rest) :
    scanDigits 10 (s.take (scanDigits 10 s).length ++ rest) = scanDigits 10 s := by
  obtain ⟨ds, r, rfl, hall, hr⟩ := scanDigits_split 10 s
  obtain ⟨hscan, hlen⟩ := scanDigits_append hall hr
  obtain ⟨hscan', -⟩ := scanDigits_append hall (scanDigits_delimits hrest)
  rw [hscan, hlen, List.take_left, hscan']

/-- There are no more digits than characters. -/
theorem length_scanDigits_le (s : Text) : (scanDigits 10 s).length ≤ s.length := by
  obtain ⟨ds, r, rfl, hall, hr⟩ := scanDigits_split 10 s
  obtain ⟨hscan, hlen⟩ := scanDigits_append hall hr
  rw [hscan, hlen, List.length_append]
  exact Nat.le_add_right _ _

/-- The whole number at the start of a text and how many characters it has. -/
def scanWhole (s : Text) : Int × Nat :=
  if s.head? = some (chr '-') then
    match scanDigits 10 s.tail with
    | [] => (0, 0)
    | ds => (-(digitsValue 10 ds : Int), ds.length + 1)
  else (digitsValue 10 (scanDigits 10 s), (scanDigits 10 s).length)

theorem scanWhole_minus {s : Text} (h : scanDigits 10 s ≠ []) :
    scanWhole (chr '-' :: s) =
      (-(digitsValue 10 (scanDigits 10 s) : Int), (scanDigits 10 s).length + 1) := by
  rw [scanWhole, List.head?_cons, if_pos rfl, List.tail_cons]
  cases hds : scanDigits 10 s with
  | nil => exact absurd hds h
  | cons c ds => rfl

/-- The number is found again in front of a delimiter. -/
theorem scanWhole_take_append {s rest : Text} (hpos : 0 < (scanWhole s).2) (hrest : Delimits rest) :
    scanWhole (s.take (scanWhole s).2 ++ rest) = scanWhole s := by
  by_cases hminus : s.head? = some (chr '-')
  · obtain ⟨t, rfl⟩ := List.head?_eq_some_iff.mp hminus
    have hdigits : scanDigits 10 t ≠ [] := by
      intro hnil
      rw [scanWhole, List.head?_cons, if_pos rfl, List.tail_cons, hnil] at hpos
      exact absurd hpos (by decide)
    have hsame := @scanDigits_take_append t rest hrest
    rw [scanWhole_minus hdigits, List.take_succ_cons, List.cons_append,
      scanWhole_minus (by rwa [hsame]), hsame]
  · have hsame := @scanDigits_take_append s rest hrest
    have hrun : scanWhole s = ((digitsValue 10 (scanDigits 10 s) : Int), (scanDigits 10 s).length) :=
      if_neg hminus
    rw [hrun] at hpos ⊢
    have hhead : (s.take (scanDigits 10 s).length ++ rest).head? ≠ some (chr '-') := by
      obtain ⟨n, hn⟩ := Nat.exists_eq_succ_of_ne_zero hpos.ne'
      cases s with
      | nil => cases hpos
      | cons c cs =>
        dsimp only at hn
        rw [hn]
        exact hminus
    rw [scanWhole, if_neg hhead, hsame]

/-- The number and its length as `strtod` gives them, with `ERANGE` outside 64 bits. -/
def wholeStrtod (s : Text) : Option Rat × Nat :=
  (if (scanWhole s).1.natAbs ≤ 2 ^ 63 then some (scanWhole s).1 else none, (scanWhole s).2)

/-- Doubles that are whole numbers, as `strtod` reads and `sprintf` prints them. -/
def wholeNumbers : Doubles where
  strtod := wholeStrtod
  printf x := decimalInt x.floor
  le_length s := by
    have hle := length_scanDigits_le s.tail
    have hle' := length_scanDigits_le s
    rw [List.length_tail] at hle
    simp only [wholeStrtod, scanWhole]
    split
    · next hminus =>
      obtain ⟨t, rfl⟩ := List.head?_eq_some_iff.mp hminus
      split
      · exact Nat.zero_le _
      · rw [List.length_cons, Nat.add_sub_cancel] at hle
        exact Nat.succ_le_succ hle
    · exact hle'
  longest h hn hrest := by
    have hlen := congrArg Prod.snd h
    dsimp only [wholeStrtod] at hlen
    subst hlen
    rw [← h, wholeStrtod, scanWhole_take_append hn hrest]
    rfl

theorem isDecimal_decimalInt (x : Int) : isDecimal (decimalInt x) = true := by
  have hdigit : ∀ c : UInt8, isdigit c = true → c ≠ chr 'x' ∧ c ≠ chr 'X' :=
    forall_byte (by decide +kernel)
  have hall : ∀ n, (decimal n).all (fun c => c ≠ chr 'x' ∧ c ≠ chr 'X') = true := by
    intro n
    rw [List.all_eq_true]
    exact fun c hc => decide_eq_true (hdigit c (isdigit_of_mem_decimal hc))
  by_cases hzero : x = 0
  · subst hzero
    decide
  · -- the first digit is none
    obtain ⟨d, ds, hds, hd, hlt, -⟩ := decimal_eq_map_of_ne_zero (n := x.natAbs) (by omega)
    have hfirst : ∀ d < 10, d ≠ 0 → digitByte d ≠ chr '0' ∧ digitByte d ≠ chr '-' := by decide
    have hne := hfirst d (hlt d List.mem_cons_self) hd
    have hbody := hall x.natAbs
    unfold decimalInt
    rw [hds, List.map_cons] at hbody ⊢
    split
    · rw [isDecimal, if_neg, if_neg]
      · rw [List.all_cons, hbody]
        decide
      · rintro ⟨-, ⟨u, hu⟩, -⟩
        exact hne.1 (List.cons.inj (List.cons.inj hu).2).1.symm
      · rintro ⟨-, h, -⟩
        exact absurd h (by simp; decide)
    · rw [isDecimal, if_neg, if_neg]
      · exact hbody
      · rintro ⟨-, ⟨u, hu⟩, -⟩
        exact hne.2 (List.cons.inj hu).1.symm
      · rintro ⟨-, h, -⟩
        exact hne.1 h

/-- A printed number is read back in front of a delimiter. -/
theorem scanWhole_decimalInt_append {x : Int} {rest : Text} (hrest : Delimits rest) :
    scanWhole (decimalInt x ++ rest) = (x, (decimalInt x).length) := by
  obtain ⟨ds, hds, hne, hlt, hval⟩ := decimal_eq_map x.natAbs
  have hdigits : ∀ c ∈ decimal x.natAbs, (digitVal c).any (· < 10) = true := fun c hc =>
    (digitVal_any_ten c).trans (isdigit_of_mem_decimal hc)
  have hlen : (decimal x.natAbs).length = ds.length := by rw [hds, List.length_map]
  have hscan : scanDigits 10 (decimal x.natAbs ++ rest) = ds := by
    rw [(scanDigits_append hdigits (scanDigits_delimits hrest)).1,
      ← scanDigits_eq_filterMap hdigits, hds, scanDigits_map_digitByte hlt]
  unfold decimalInt
  by_cases hneg : x < 0
  · rw [if_pos hneg, List.cons_append, scanWhole_minus (by rwa [hscan]), hscan, hval,
      List.length_cons, hlen, show -(x.natAbs : Int) = x by omega]
  · have hhead : (decimal x.natAbs ++ rest).head? ≠ some (chr '-') := by
      obtain ⟨c, cs, hc⟩ := List.exists_cons_of_ne_nil (decimal_ne_nil x.natAbs)
      have hdigit := isdigit_of_mem_decimal (hc ▸ List.mem_cons_self : c ∈ decimal x.natAbs)
      rw [hc]
      exact fun heq => (not_sign_of_isdigit hdigit).1 (Option.some_inj.mp heq)
    rw [if_neg hneg, scanWhole, if_neg hhead, hscan, hval, hlen,
      show (x.natAbs : Int) = x by omega]

theorem eq_minus_or_isdigit {x : Int} {c : UInt8} (hc : c ∈ decimalInt x) :
    c = chr '-' ∨ isdigit c = true := by
  unfold decimalInt at hc
  split at hc
  · rcases List.mem_cons.mp hc with rfl | hmem
    · exact .inl rfl
    · exact .inr (isdigit_of_mem_decimal hmem)
  · exact .inr (isdigit_of_mem_decimal hc)

/-- Whole numbers of 64 bits are printed as they are read. -/
theorem wholeNumbers_exact {x : Int} (h : x.natAbs ≤ 2 ^ 63) : wholeNumbers.Exact x := by
  have hprint : wholeNumbers.printf x = decimalInt x := congrArg decimalInt (Rat.floor_intCast x)
  have hlen := decimalInt_length_lt h
  refine ⟨⟨?_, ?_⟩, ?_, ?_, fun rest hrest => ?_⟩
  all_goals rw [hprint]
  · exact hlen.trans (by decide)
  · exact fun hmem => absurd (eq_minus_or_isdigit hmem) (by decide)
  · obtain ⟨c, cs, hc⟩ := List.exists_cons_of_ne_nil (decimalInt_ne_nil x)
    exact ⟨c, cs, hc, eq_minus_or_isdigit (hc ▸ List.mem_cons_self : c ∈ decimalInt x)⟩
  · exact isDecimal_decimalInt x
  · change wholeStrtod _ = _
    rw [wholeStrtod, scanWhole_decimalInt_append hrest, if_pos h]

section RoundTrip

variable {d : Doubles} {levels : Nat} {v : Json}

theorem wellFormed_of_parse {string : Text} (h : jsonParseString d string = some v) :
    WellFormed (fun _ => True) (MAX_NESTING + 1) v := by
  by_cases hv : ∃ x, v = .number x
  · obtain ⟨x, rfl⟩ := hv
    trivial
  · obtain ⟨ws, t, rest, -, -, hspells⟩ :=
      exists_spells_of_jsonParseString (fun x hx => hv ⟨x, hx⟩) h
    exact (wellFormed_of_spells hspells).mono fun _ _ => trivial

/-- The text of a document that is not nested too deeply is parsed back. -/
theorem jsonParseString_jsonText (h : WellFormed d.Exact (MAX_NESTING + 1) v) (pretty : Bool) :
    jsonParseString d (jsonText d pretty v 0) = some v := by
  have hnul : 0 ∉ jsonText d pretty v 0 :=
    nul_notMem_jsonText (h.mono fun _ hx => hx.toFits) 0
  have hspells := spells_jsonText h pretty 0
  have hstring : skipMark (cstring (jsonText d pretty v 0)) = [] ++ (jsonText d pretty v 0 ++ []) := by
    rw [cstring_eq hnul, List.append_nil]
    exact skipMark_eq_self spaces_nil (spells_starts hspells)
  exact jsonParseString_of_spells hstring spaces_nil hspells (.inl delimits_nil)

/-- The text of a document is parsed back, compact or pretty, exactly when the document has no more
levels than `MAX_NESTING` allows. -/
theorem jsonParseString_jsonText_iff (h : WellFormed d.Exact levels v) (pretty : Bool) :
    jsonParseString d (jsonText d pretty v 0) = some v ↔ jsonLevels v ≤ MAX_NESTING + 1 := by
  constructor
  · intro hparse
    have hwell := wellFormed_of_parse hparse
    exact (wellFormed_iff_levels_le hwell).mp hwell
  · exact fun hlevels => jsonParseString_jsonText ((wellFormed_iff_levels_le h).mpr hlevels) pretty

end RoundTrip

-- ---------------------------------------------------------------------------
-- Results
-- ---------------------------------------------------------------------------

/-- A lamp as it may stand in a document. -/
def lampDocument : Json :=
  .object [(lit "name", .string [0xC3, 0xA9, 34, 10]), (lit "levels", .array [.number 7, .null])]

theorem lampDocument_wellFormed : WellFormed wholeNumbers.Exact (MAX_NESTING + 1) lampDocument := by
  have hseven : wholeNumbers.Exact 7 := wholeNumbers_exact (x := 7) (by decide)
  have hname : 0 ∉ ([0xC3, 0xA9, 34, 10] : Text) := by decide
  refine ⟨by decide, List.forall_mem_cons.mpr ⟨⟨by decide, hname⟩,
    List.forall_mem_singleton.mpr ⟨by decide, ?_⟩⟩⟩
  exact List.forall_mem_cons.mpr ⟨hseven, List.forall_mem_singleton.mpr trivial⟩

theorem lampDocument_length (pretty : Bool) :
    (jsonText wholeNumbers pretty lampDocument 0).length + 1 < 2 ^ 31 := by
  cases pretty <;> decide +kernel

/-- A document that is no number is parsed exactly when the string starts, behind a byte order mark
and white space, with a text that the grammar has for it. What follows is not looked at. -/
theorem jsonParseString_iff_spells (d : Doubles) (string : Text) (v : Json)
    (hv : ∀ x, v ≠ .number x) :
    jsonParseString d string = some v ↔
      ∃ ws t rest, skipMark (cstring string) = ws ++ (t ++ rest) ∧ Spaces ws ∧
        Spells d (MAX_NESTING + 1) v t :=
  ⟨exists_spells_of_jsonParseString hv, fun ⟨_, _, _, hstring, hws, hspells⟩ =>
    jsonParseString_of_spells hstring hws hspells (.inr hv)⟩

/-- A text with a line in front of it and another one behind it. -/
theorem jsonParseString_lampDocument :
    jsonParseString wholeNumbers
      ([10] ++ (jsonText wholeNumbers true lampDocument 0 ++ lit " ]")) = some lampDocument := by
  have hspells := spells_jsonText lampDocument_wellFormed true 0
  refine (jsonParseString_iff_spells wholeNumbers _ lampDocument nofun).mpr
    ⟨[10], _, lit " ]", ?_, spaces_newline, hspells⟩
  have hnul : 0 ∉ jsonText wholeNumbers true lampDocument 0 :=
    nul_notMem_jsonText (lampDocument_wellFormed.mono fun _ hx => hx.toFits) 0
  rw [cstring_eq (by simp [hnul]; decide)]
  exact skipMark_eq_self spaces_newline (by
    obtain ⟨c, cs, ht, hc⟩ := spells_starts hspells
    exact ⟨c, _, by rw [ht]; rfl, hc⟩)

/-- A document goes through `json_serialize_to_string` and `json_parse_string` unchanged exactly when
it has no more levels than `MAX_NESTING` allows; the block that is parsed is exactly as long as the
text. -/
theorem document_roundTrip_iff (d : Doubles) (levels : Nat) (v : Json) (pretty : Bool)
    (h : WellFormed d.Exact levels v) (hlen : (jsonText d pretty v 0).length + 1 < 2 ^ 31) :
    ∃ b text, jsonSerializeToString d pretty v = .ok (some b) ∧ b.string = .ok text ∧
      b.size = text.length + 1 ∧
      (jsonParseString d text = some v ↔ jsonLevels v ≤ MAX_NESTING + 1) := by
  obtain ⟨b, hrun, hb⟩ := jsonSerializeToString_eq_ok (h.mono fun _ hx => hx.toFits) hlen
  exact ⟨b, _, hrun, hb.string, hb.size, jsonParseString_jsonText_iff h pretty⟩

theorem lampDocument_roundTrip :
    ∃ b text, jsonSerializeToString wholeNumbers true lampDocument = .ok (some b) ∧
      b.string = .ok text ∧ b.size = text.length + 1 ∧
      (jsonParseString wholeNumbers text = some lampDocument ↔
        jsonLevels lampDocument ≤ MAX_NESTING + 1) :=
  document_roundTrip_iff wholeNumbers _ lampDocument true lampDocument_wellFormed
    (lampDocument_length true)

/-- `json_serialize_to_buffer` refuses a buffer that is too small for the text and its NUL. Any other
buffer holds the text afterwards, and is as it was behind it. -/
theorem jsonSerializeToBuffer_fits_iff (d : Doubles) (levels : Nat) (v : Json) (pretty : Bool)
    (buf : Block) (h : WellFormed d.Fits levels v)
    (hlen : (jsonText d pretty v 0).length + 1 < 2 ^ 31) :
    ∃ r, jsonSerializeToBuffer d pretty v buf buf.size = .ok r ∧
      (r = none ↔ buf.size ≤ (jsonText d pretty v 0).length) ∧
      ∀ b ∈ r, b.string = .ok (jsonText d pretty v 0) ∧ b.size = buf.size ∧
        b.cells.drop ((jsonText d pretty v 0).length + 1) =
          buf.cells.drop ((jsonText d pretty v 0).length + 1) := by
  by_cases hsize : (jsonText d pretty v 0).length + 1 ≤ buf.size
  · obtain ⟨b, hrun, hb, hframe⟩ := jsonSerializeToBuffer_of_le h hlen hsize
    refine ⟨some b, hrun, iff_of_false nofun (by omega), ?_⟩
    rintro _ ⟨⟩
    exact ⟨hb.string, by rw [hb.size]; omega, hframe⟩
  · refine ⟨none, ?_, iff_of_true rfl (by omega), nofun⟩
    rw [jsonSerializeToBuffer, jsonSerializationSize_eq_ok h hlen, Checked.ok_bind,
      if_pos (by omega)]
    rfl

theorem lampDocument_fits :
    ∃ r, jsonSerializeToBuffer wholeNumbers false lampDocument (Block.malloc 64)
        (Block.malloc 64).size = .ok r ∧
      (r = none ↔ (Block.malloc 64).size ≤ (jsonText wholeNumbers false lampDocument 0).length) ∧
      ∀ b ∈ r, b.string = .ok (jsonText wholeNumbers false lampDocument 0) ∧
        b.size = (Block.malloc 64).size ∧
        b.cells.drop ((jsonText wholeNumbers false lampDocument 0).length + 1) =
          (Block.malloc 64).cells.drop
            ((jsonText wholeNumbers false lampDocument 0).length + 1) :=
  jsonSerializeToBuffer_fits_iff wholeNumbers _ lampDocument false (Block.malloc 64)
    (lampDocument_wellFormed.mono fun _ hx => hx.toFits) (lampDocument_length false)

end Zigbee
