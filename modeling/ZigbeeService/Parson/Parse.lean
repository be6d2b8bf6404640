-- SUMMARY: The parser of parson.c accepts exactly the texts of a grammar of JSON documents.
import ZigbeeService.Lib.Reader
import ZigbeeService.Parson.Strings

/-!
# Parsing

`json_parse_string` and the functions below it. A cursor is the text that is left of the string. The
parser stands against a grammar that says which texts spell which document.
-/

namespace Zigbee

open CLib

-- ---------------------------------------------------------------------------
-- Numbers
-- ---------------------------------------------------------------------------

/-- What the C library does with the doubles of a document. `strtod` gives the number at the start
of a text, none where it sets `errno` or the number is not finite, and how many characters it took.
`printf` is `sprintf` with `FLOAT_FORMAT`. The two zeros are one number here. -/
structure Doubles where
  strtod : Text → Option Rat × Nat
  printf : Rat → Text
  le_length : ∀ s, (strtod s).2 ≤ s.length
  /-- The longest number at the start is taken, and no number holds a delimiter. -/
  longest : ∀ {s : Text} {x : Rat} {n : Nat} {rest : Text}, strtod s = (some x, n) → 0 < n →
    Delimits rest → strtod (s.take n ++ rest) = (some x, n)

/-- `is_decimal`. -/
def isDecimal (s : Text) : Bool :=
  if s.length > 1 ∧ s.getD 0 0 = chr '0' ∧ s.getD 1 0 ≠ chr '.' then false
  else if s.length > 2 ∧ lit "-0" <+: s ∧ s.getD 2 0 ≠ chr '.' then false
  else s.all fun c => c ≠ chr 'x' ∧ c ≠ chr 'X'

variable (d : Doubles)

/-- `parse_number_value`. -/
def parseNumberValue : Reader Json where
  run s :=
    match d.strtod s with
    | (none, _) => none
    | (some x, n) => if isDecimal (s.take n) then some (.number x, s.drop n) else none
  suffix := by
    intro s v rest h
    split at h
    · cases h
    · next x n _ =>
      split at h
      · cases h
        exact List.drop_suffix n s
      · cases h

-- ---------------------------------------------------------------------------
-- The other values
-- ---------------------------------------------------------------------------

/-- `parse_string_value`. -/
def parseStringValue : Reader Json where
  run s := (getQuotedString s).map fun p => (.string p.1, p.2)
  suffix := by
    intro s v rest h
    obtain ⟨⟨k, rest'⟩, hk, heq⟩ := Option.map_eq_some_iff.mp h
    cases heq
    obtain ⟨q, rfl, -⟩ := getQuotedString_eq_some.mp hk
    exact List.suffix_append q rest'

/-- `parse_boolean_value`. -/
def parseBooleanValue : Reader Json where
  run s :=
    if lit "true" <+: s then some (.boolean true, s.drop (lit "true").length)
    else if lit "false" <+: s then some (.boolean false, s.drop (lit "false").length)
    else none
  suffix := by
    intro s v rest h
    split at h
    · cases h
      exact List.drop_suffix _ s
    · split at h
      · cases h
        exact List.drop_suffix _ s
      · cases h

/-- `parse_null_value`. -/
def parseNullValue : Reader Json where
  run s := if lit "null" <+: s then some (.null, s.drop (lit "null").length) else none
  suffix := by
    intro s v rest h
    split at h
    · cases h
      exact List.drop_suffix _ s
    · cases h

/-- `json_object_add`: a name that is there already is refused. -/
def jsonObjectAdd (ms : Members) (m : Text × Json) : Option Members :=
  if assocGet m.1 ms = none then some (ms ++ [m]) else none

/-- The name of a member, a colon, and its value. -/
def parseMember (value : Reader Json) : Reader (Text × Json) where
  run s := (getQuotedString s).bind fun p =>
    if (skipWhitespaces p.2).head? = some (chr ':') then
      (value.run (skipWhitespaces p.2).tail).map fun r => ((p.1, r.1), r.2)
    else none
  suffix := by
    intro s m rest h
    obtain ⟨⟨k, r⟩, hk, h⟩ := Option.bind_eq_some_iff.mp h
    split at h
    · obtain ⟨⟨v, rest'⟩, hv, heq⟩ := Option.map_eq_some_iff.mp h
      cases heq
      obtain ⟨q, rfl, -⟩ := getQuotedString_eq_some.mp hk
      exact (value.suffix hv).trans ((List.tail_suffix _).trans
        ((skipWhitespaces_suffix r).trans (List.suffix_append q r)))
    · cases h

/-- `parse_object_value`, which reads the values of the members with `value`. -/
def parseObjectValue (value : Reader Json) : Reader Json :=
  (readBracketed (chr '{') (chr '}') (parseMember value) jsonObjectAdd []).map .object

/-- `parse_array_value`, which reads the items with `value`. -/
def parseArrayValue (value : Reader Json) : Reader Json :=
  (readBracketed (chr '[') (chr ']') value (fun items v => some (items ++ [v])) []).map .array

/-- The switch in `parse_value`, with the reader for the values inside an object or an array. -/
def parseDispatch (value : Reader Json) : Reader Json where
  run s :=
    match (skipWhitespaces s).head? with
    | none => none
    | some c =>
      if c = chr '{' then (parseObjectValue value).run (skipWhitespaces s)
      else if c = chr '[' then (parseArrayValue value).run (skipWhitespaces s)
      else if c = chr '"' then parseStringValue.run (skipWhitespaces s)
      else if c = chr 'f' ∨ c = chr 't' then parseBooleanValue.run (skipWhitespaces s)
      else if c = chr '-' ∨ isdigit c = true then (parseNumberValue d).run (skipWhitespaces s)
      else if c = chr 'n' then parseNullValue.run (skipWhitespaces s)
      else none
  suffix := by
    intro s v rest h
    refine List.IsSuffix.trans ?_ (skipWhitespaces_suffix s)
    split at h
    · cases h
    · split_ifs at h
      · exact (parseObjectValue value).suffix h
      · exact (parseArrayValue value).suffix h
      · exact parseStringValue.suffix h
      · exact parseBooleanValue.suffix h
      · exact (parseNumberValue d).suffix h
      · exact parseNullValue.suffix h

/-- `MAX_NESTING`. -/
def MAX_NESTING : Nat := 2048

/-- `parse_value` where this many levels may still be opened. -/
def parseLevels : Nat → Reader Json
  | 0 => { run := fun _ => none, suffix := nofun }
  | levels + 1 => parseDispatch d (parseLevels levels)

/-- `parse_value`. -/
def parseValue (nesting : Nat) : Reader Json := parseLevels d (MAX_NESTING + 1 - nesting)

/-- The recursion of the source: a value below the limit reads its own with one more level. -/
theorem parseValue_eq (nesting : Nat) :
    (parseValue d nesting).run = if nesting > MAX_NESTING then fun _ => none
      else (parseDispatch d (parseValue d (nesting + 1))).run := by
  unfold parseValue
  split
  · next h => rw [Nat.sub_eq_zero_of_le (by omega)]; rfl
  · next h =>
    rw [show MAX_NESTING + 1 - nesting = (MAX_NESTING + 1 - (nesting + 1)) + 1 by omega]
    rfl

/-- The text behind a byte order mark. -/
def skipMark (s : Text) : Text := if [0xEF, 0xBB, 0xBF] <+: s then s.drop 3 else s

/-- `json_parse_string`. What follows the document is not looked at. -/
def jsonParseString (string : Text) : Option Json :=
  ((parseValue d 0).run (skipMark (cstring string))).map Prod.fst

-- ---------------------------------------------------------------------------
-- The grammar
-- ---------------------------------------------------------------------------

/-- A text that `strtod` reads as the number and that is a decimal one. -/
def NumberText (x : Rat) (t : Text) : Prop :=
  (∃ c cs, t = c :: cs ∧ (c = chr '-' ∨ isdigit c = true)) ∧ isDecimal t = true ∧
    ∀ rest, Delimits rest → d.strtod (t ++ rest) = (some x, t.length)

/-- A member: its name in quotes, a colon, and a text for its value. -/
inductive MemberText (R : Json → Text → Prop) : Text × Json → Text → Prop where
  | mk {k : Text} {v : Json} {q ws ws' t : Text} : Quoted k q → Spaces ws → Spaces ws' → R v t →
      MemberText R (k, v) (q ++ (ws ++ chr ':' :: (ws' ++ t)))

/-- The texts of a document, given those of the values inside an object or an array. -/
def ValueText (R : Json → Text → Prop) : Json → Text → Prop
  | .null, t => t = lit "null"
  | .boolean b, t => t = if b then lit "true" else lit "false"
  | .number x, t => NumberText d x t
  | .string k, t => Quoted k t
  | .array items, t => Bracketed (chr '[') (chr ']') R items t
  | .object ms, t => (ms.map Prod.fst).Nodup ∧ Bracketed (chr '{') (chr '}') (MemberText R) ms t

/-- The texts of a document that opens at most so many levels, the innermost values included. -/
def Spells : (levels : Nat) → Json → Text → Prop
  | 0 => fun _ _ => False
  | levels + 1 => ValueText d (Spells levels)

/-- A document that a C program can hold: C strings, no name twice in an object, numbers as `P` has
them, and at most so many levels. -/
def WellFormed (P : Rat → Prop) : (levels : Nat) → Json → Prop
  | 0, _ => False
  | levels + 1, .array items => ∀ v ∈ items, WellFormed P levels v
  | levels + 1, .object ms =>
    (ms.map Prod.fst).Nodup ∧ ∀ m ∈ ms, 0 ∉ m.1 ∧ WellFormed P levels m.2
  | _ + 1, .string s => 0 ∉ s
  | _ + 1, .number x => P x
  | _ + 1, .boolean _ => True
  | _ + 1, .null => True

/-- A character that a text of this value may start with. -/
def ValueStarts : Json → UInt8 → Prop
  | .null, c => c = chr 'n'
  | .boolean _, c => c = chr 'f' ∨ c = chr 't'
  | .number _, c => c = chr '-' ∨ isdigit c = true
  | .string _, c => c = chr '"'
  | .array _, c => c = chr '['
  | .object _, c => c = chr '{'

theorem ValueStarts.solid {v : Json} {c : UInt8} (h : ValueStarts v c) :
    isspace c = false ∧ c ≠ chr ']' ∧ c ≠ chr '}' ∧ c ≠ 0xEF := by
  have hall : ∀ c : UInt8, (c = chr 'n' ∨ (c = chr 'f' ∨ c = chr 't') ∨
      (c = chr '-' ∨ isdigit c = true) ∨ c = chr '"' ∨ c = chr '[' ∨ c = chr '{') →
      isspace c = false ∧ c ≠ chr ']' ∧ c ≠ chr '}' ∧ c ≠ 0xEF := forall_byte (by decide +kernel)
  refine hall c ?_
  cases v <;> simp only [ValueStarts] at h <;> simp [h]

variable {d}

/-- What a text of a value starts with. -/
theorem valueText_starts {R : Json → Text → Prop} {v : Json} {t : Text} (h : ValueText d R v t) :
    ∃ c cs, t = c :: cs ∧ ValueStarts v c := by
  cases v with
  | null => exact ⟨chr 'n', lit "ull", h, rfl⟩
  | boolean b =>
    cases b with
    | true => exact ⟨chr 't', lit "rue", h, .inr rfl⟩
    | false => exact ⟨chr 'f', lit "alse", h, .inl rfl⟩
  | number x =>
    obtain ⟨⟨c, cs, rfl, hc⟩, -⟩ := h
    exact ⟨c, cs, rfl, hc⟩
  | string k =>
    obtain ⟨body, out, -, -, rfl⟩ := h
    exact ⟨_, _, rfl, rfl⟩
  | array items => cases h <;> exact ⟨_, _, rfl, rfl⟩
  | object ms => cases h.2 <;> exact ⟨_, _, rfl, rfl⟩

theorem spells_starts {levels : Nat} {v : Json} {t : Text} (h : Spells d levels v t) :
    ∃ c cs, t = c :: cs ∧ ValueStarts v c := by
  cases levels with
  | zero => exact h.elim
  | succ levels => exact valueText_starts h

theorem spells_solid {levels : Nat} {v : Json} {t : Text} (h : Spells d levels v t) : Solid t := by
  obtain ⟨c, cs, rfl, hc⟩ := spells_starts h
  exact ⟨c, cs, rfl, hc.solid.1⟩

theorem memberText_starts {R : Json → Text → Prop} {m : Text × Json} {t : Text}
    (h : MemberText R m t) : ∃ cs, t = chr '"' :: cs := by
  obtain ⟨⟨body, out, -, -, rfl⟩, -⟩ := h
  exact ⟨_, rfl⟩

/-- Items are added one after the other. -/
theorem foldlM_append_eq_some {items as b : List Json} :
    as.foldlM (fun items v => some (items ++ [v])) items = some b ↔ b = items ++ as := by
  induction as generalizing items with
  | nil => simp [eq_comm]
  | cons v as ih =>
    rw [List.foldlM_cons]
    exact ih.trans (by simp)

/-- Members are added one after the other while their names are new. -/
theorem foldlM_jsonObjectAdd_eq_some {ms as b : Members} (hms : (ms.map Prod.fst).Nodup) :
    as.foldlM jsonObjectAdd ms = some b ↔ ((ms ++ as).map Prod.fst).Nodup ∧ b = ms ++ as := by
  induction as generalizing ms with
  | nil => simp [hms, eq_comm]
  | cons m as ih =>
    have hsplit : ms ++ m :: as = ms ++ [m] ++ as := by simp
    rw [List.foldlM_cons, jsonObjectAdd]
    split
    · next hget =>
      have hnew := assocGet_eq_none.mp hget
      have hnodup : ((ms ++ [m]).map Prod.fst).Nodup := by
        rw [List.map_append, List.map_singleton]
        exact List.nodup_append.mpr ⟨hms, List.nodup_singleton _, by
          rintro a ha _ hb rfl
          rw [List.mem_singleton] at hb
          exact hnew (hb ▸ ha)⟩
      rw [hsplit]
      exact ih hnodup
    · next hget =>
      refine iff_of_false (Option.some_ne_none b).symm fun hand =>
        hget (assocGet_eq_none.mpr fun hmem => ?_)
      have hnodup := hand.1
      rw [List.map_append, List.map_cons, List.nodup_append] at hnodup
      exact hnodup.2.2 _ hmem _ List.mem_cons_self rfl

-- ---------------------------------------------------------------------------
-- One value
-- ---------------------------------------------------------------------------

/-- A reader of values: it skips white space in front of them, and there is none in no text. -/
structure ReadsValues (value : Reader Json) (R : Json → Text → Prop) : Prop where
  reads : value.Reads R
  skips : ∀ s, value.run (skipWhitespaces s) = value.run s
  empty : value.run [] = none
  starts : ∀ {v t}, R v t → ∃ c cs, t = c :: cs ∧ ValueStarts v c

section Value

variable {value : Reader Json} {R : Json → Text → Prop} (hvalue : ReadsValues value R)
include hvalue

theorem ReadsValues.solid {v : Json} {t : Text} (h : R v t) : Solid t := by
  obtain ⟨c, cs, rfl, hc⟩ := hvalue.starts h
  exact ⟨c, cs, rfl, hc.solid.1⟩

/-- Members are read as the grammar has them. -/
theorem parseMember_reads : (parseMember value).Reads (MemberText R) := by
  rintro s ⟨k, v⟩ rest - hrest
  constructor
  · intro h
    obtain ⟨⟨k', r⟩, hk, hmember⟩ := Option.bind_eq_some_iff.mp h
    obtain ⟨q, rfl, hq⟩ := getQuotedString_eq_some.mp hk
    split at hmember
    · next hcolon =>
      obtain ⟨u, hu⟩ := List.head?_eq_some_iff.mp hcolon
      obtain ⟨⟨v', rest'⟩, hv, heq⟩ := Option.map_eq_some_iff.mp hmember
      cases heq
      dsimp only at hu
      rw [hu, List.tail_cons, ← hvalue.skips] at hv
      obtain ⟨ws, hws, hr, -⟩ := skipWhitespaces_split r
      obtain ⟨ws', hws', husplit, hend⟩ := skipWhitespaces_split u
      have hsolid : Solid (skipWhitespaces u) := by
        refine hend.resolve_left fun hnil => ?_
        rw [hnil, hvalue.empty] at hv
        cases hv
      obtain ⟨t, ht, hR⟩ := (hvalue.reads _ _ _ hsolid hrest).mp hv
      refine ⟨q ++ (ws ++ chr ':' :: (ws' ++ t)), ?_, .mk hq hws hws' hR⟩
      rw [hr, hu, husplit, ht]
      simp
    · cases hmember
  · rintro ⟨t, rfl, h⟩
    cases h with
    | @mk _ _ q ws ws' t hq hws hws' hR =>
      have hquoted : getQuotedString (q ++ (ws ++ chr ':' :: (ws' ++ (t ++ rest)))) =
          some (k, ws ++ chr ':' :: (ws' ++ (t ++ rest))) :=
        getQuotedString_eq_some.mpr ⟨q, rfl, hq⟩
      have hcolon : skipWhitespaces (ws ++ chr ':' :: (ws' ++ (t ++ rest))) =
          chr ':' :: (ws' ++ (t ++ rest)) :=
        skipWhitespaces_spaces_append hws ⟨_, _, rfl, by decide⟩
      have hsolid : Solid (t ++ rest) := (hvalue.solid hR).append rest
      have hrun : value.run (ws' ++ (t ++ rest)) = some (v, rest) := by
        rw [← hvalue.skips, skipWhitespaces_spaces_append hws' hsolid]
        exact (hvalue.reads _ v rest hsolid hrest).mpr ⟨t, rfl, hR⟩
      have htext : q ++ (ws ++ chr ':' :: (ws' ++ t)) ++ rest =
          q ++ (ws ++ chr ':' :: (ws' ++ (t ++ rest))) := by simp
      simp only [parseMember, htext, hquoted, Option.bind_some, hcolon, List.head?_cons, if_true,
        List.tail_cons, hrun, Option.map_some]

/-- `parse_array_value` reads arrays, whatever follows them. -/
theorem parseArrayValue_eq_some {s rest : Text} {v : Json} :
    (parseArrayValue value).run s = some (v, rest) ↔
      ∃ items t, v = .array items ∧ s = t ++ rest ∧ Bracketed (chr '[') (chr ']') R items t := by
  have hstart : ∀ {v : Json} {t : Text}, R v t → t.head? ≠ some (chr ']') := by
    intro v t h
    obtain ⟨c, cs, rfl, hc⟩ := hvalue.starts h
    exact fun heq => hc.solid.2.1 (Option.some_inj.mp heq)
  have hread := @readBracketed_eq_some _ (List Json) (chr '[') (chr ']') value
    (fun items v => some (items ++ [v])) R hvalue.reads hvalue.solid (.inl rfl) hstart
  rw [parseArrayValue, Reader.map_run_eq_some]
  constructor
  · rintro ⟨items, h, rfl⟩
    obtain ⟨as, t, rfl, hbracketed, hfold⟩ := hread.mp h
    rw [foldlM_append_eq_some.mp hfold]
    exact ⟨as, t, rfl, rfl, hbracketed⟩
  · rintro ⟨items, t, rfl, rfl, hbracketed⟩
    exact ⟨items, hread.mpr ⟨items, t, rfl, hbracketed, foldlM_append_eq_some.mpr rfl⟩, rfl⟩

/-- `parse_object_value` reads objects in which no name occurs twice, whatever follows them. -/
theorem parseObjectValue_eq_some {s rest : Text} {v : Json} :
    (parseObjectValue value).run s = some (v, rest) ↔
      ∃ ms t, v = .object ms ∧ s = t ++ rest ∧ (ms.map Prod.fst).Nodup ∧
        Bracketed (chr '{') (chr '}') (MemberText R) ms t := by
  have hsolid : ∀ {m : Text × Json} {t : Text}, MemberText R m t → Solid t := by
    intro m t h
    obtain ⟨cs, rfl⟩ := memberText_starts h
    exact ⟨_, _, rfl, by decide⟩
  have hstart : ∀ {m : Text × Json} {t : Text}, MemberText R m t → t.head? ≠ some (chr '}') := by
    intro m t h
    obtain ⟨cs, rfl⟩ := memberText_starts h
    exact fun heq => absurd (Option.some_inj.mp heq) (by decide)
  have hread := @readBracketed_eq_some _ Members (chr '{') (chr '}') (parseMember value)
    jsonObjectAdd (MemberText R) (parseMember_reads hvalue) hsolid (.inr rfl) hstart
  have hnil : (([] : Members).map Prod.fst).Nodup := List.nodup_nil
  rw [parseObjectValue, Reader.map_run_eq_some]
  constructor
  · rintro ⟨ms, h, rfl⟩
    obtain ⟨as, t, rfl, hbracketed, hfold⟩ := hread.mp h
    obtain ⟨hnodup, hms⟩ := (foldlM_jsonObjectAdd_eq_some hnil).mp hfold
    rw [hms]
    exact ⟨as, t, rfl, rfl, hnodup, hbracketed⟩
  · rintro ⟨ms, t, rfl, rfl, hnodup, hbracketed⟩
    exact ⟨ms, hread.mpr ⟨ms, t, rfl, hbracketed,
      (foldlM_jsonObjectAdd_eq_some hnil).mpr ⟨hnodup, rfl⟩⟩, rfl⟩

end Value

theorem not_delimits_number {c : UInt8} {cs : Text} (hc : c = chr '-' ∨ isdigit c = true) :
    ¬ Delimits (c :: cs) := by
  have hall : ∀ c : UInt8, (c = chr '-' ∨ isdigit c = true) →
      ¬ (isspace c = true ∨ c = chr ',' ∨ c = chr ']' ∨ c = chr '}') :=
    forall_byte (by decide +kernel)
  exact fun h => hall c hc (h c cs rfl)

/-- In front of a delimiter a number is read as the grammar has it. -/
theorem parseNumberValue_eq_some {s rest : Text} {v : Json}
    (hs : ∃ c cs, s = c :: cs ∧ (c = chr '-' ∨ isdigit c = true)) (hrest : Delimits rest) :
    (parseNumberValue d).run s = some (v, rest) ↔
      ∃ x t, v = .number x ∧ s = t ++ rest ∧ NumberText d x t := by
  obtain ⟨c, cs, rfl, hc⟩ := hs
  constructor
  · intro h
    rcases hstrtod : d.strtod (c :: cs) with ⟨_ | x, n⟩
    · simp only [parseNumberValue, hstrtod] at h
      cases h
    · simp only [parseNumberValue, hstrtod] at h
      split at h
      · next hdecimal =>
        cases h
        have hle := d.le_length (c :: cs)
        rw [hstrtod] at hle
        -- what starts with a number and was not taken is no delimiter
        have hpos : 0 < n := by
          refine Nat.pos_of_ne_zero fun hzero => ?_
          rw [hzero] at hrest
          exact not_delimits_number hc hrest
        obtain ⟨m, rfl⟩ := Nat.exists_eq_succ_of_ne_zero hpos.ne'
        refine ⟨x, (c :: cs).take (m + 1), rfl, (List.take_append_drop _ _).symm,
          ⟨c, cs.take m, rfl, hc⟩, hdecimal, fun rest' hrest' => ?_⟩
        rw [d.longest hstrtod hpos hrest', List.length_take, Nat.min_eq_left hle]
      · cases h
  · rintro ⟨x, t, rfl, hsplit, -, hdecimal, hstrtod⟩
    simp only [parseNumberValue, hsplit, hstrtod rest hrest, List.take_left, hdecimal, if_true,
      List.drop_left]

/-- A word of the language, at the front of a text. -/
theorem prefix_iff_eq_append {word s : Text} :
    word <+: s ↔ ∃ rest, s = word ++ rest ∧ s.drop word.length = rest := by
  constructor
  · rintro ⟨rest, rfl⟩
    exact ⟨rest, rfl, List.drop_left⟩
  · rintro ⟨rest, rfl, -⟩
    exact List.prefix_append word rest

theorem parseNullValue_eq_some {s rest : Text} {v : Json} :
    parseNullValue.run s = some (v, rest) ↔ v = .null ∧ s = lit "null" ++ rest := by
  simp only [parseNullValue]
  constructor
  · intro h
    split at h
    · next hword =>
      obtain ⟨rest', rfl, hdrop⟩ := prefix_iff_eq_append.mp hword
      rw [hdrop] at h
      cases h
      exact ⟨rfl, rfl⟩
    · cases h
  · rintro ⟨rfl, rfl⟩
    rw [if_pos (List.prefix_append _ _), List.drop_left]

theorem parseBooleanValue_eq_some {s rest : Text} {v : Json} :
    parseBooleanValue.run s = some (v, rest) ↔
      ∃ b : Bool, v = .boolean b ∧ s = (if b then lit "true" else lit "false") ++ rest := by
  simp only [parseBooleanValue]
  constructor
  · intro h
    split at h
    · next hword =>
      obtain ⟨rest', rfl, hdrop⟩ := prefix_iff_eq_append.mp hword
      rw [hdrop] at h
      cases h
      exact ⟨true, rfl, rfl⟩
    · split at h
      · next hword =>
        obtain ⟨rest', rfl, hdrop⟩ := prefix_iff_eq_append.mp hword
        rw [hdrop] at h
        cases h
        exact ⟨false, rfl, rfl⟩
      · cases h
  · rintro ⟨b, rfl, rfl⟩
    cases b with
    | true =>
      rw [if_pos rfl, if_pos (List.prefix_append _ _), List.drop_left]
    | false =>
      have hnot : ¬ lit "true" <+: lit "false" ++ rest := by
        rintro ⟨t, ht⟩
        exact absurd (List.cons.inj ht).1 (by decide)
      rw [if_neg (show ¬ false = true by decide), if_neg hnot, if_pos (List.prefix_append _ _),
        List.drop_left]

/-- What is read as a number is one, whatever follows it. -/
theorem number_of_parseNumberValue {s rest : Text} {v : Json}
    (h : (parseNumberValue d).run s = some (v, rest)) : ∃ x, v = .number x := by
  simp only [parseNumberValue] at h
  split at h
  · cases h
  · split at h
    · cases h
      exact ⟨_, rfl⟩
    · cases h

section Dispatch

variable {value : Reader Json} {R : Json → Text → Prop} {s rest : Text} {v : Json}

/-- What the switch in `parse_value` reads is a value as the grammar has it. -/
theorem valueText_of_parseDispatch (hvalue : ReadsValues value R) (hs : Solid s)
    (hrest : Delimits rest ∨ ∀ x, v ≠ .number x)
    (h : (parseDispatch d value).run s = some (v, rest)) :
    ∃ t, s = t ++ rest ∧ ValueText d R v t := by
  obtain ⟨c, cs, rfl, -⟩ := id hs
  simp only [parseDispatch, hs.skipWhitespaces, List.head?_cons] at h
  split_ifs at h with hobject harray hstring hboolean hnumber hnull
  · obtain ⟨ms, t, rfl, hsplit, hnodup, ht⟩ := (parseObjectValue_eq_some hvalue).mp h
    exact ⟨t, hsplit, hnodup, ht⟩
  · obtain ⟨items, t, rfl, hsplit, ht⟩ := (parseArrayValue_eq_some hvalue).mp h
    exact ⟨t, hsplit, ht⟩
  · obtain ⟨⟨k, rest'⟩, hk, heq⟩ := Option.map_eq_some_iff.mp h
    cases heq
    exact getQuotedString_eq_some.mp hk
  · obtain ⟨b, rfl, hsplit⟩ := parseBooleanValue_eq_some.mp h
    exact ⟨_, hsplit, rfl⟩
  · rcases hrest with hrest | hrest
    · obtain ⟨x, t, rfl, hsplit, ht⟩ :=
        (parseNumberValue_eq_some ⟨c, cs, rfl, hnumber⟩ hrest).mp h
      exact ⟨t, hsplit, ht⟩
    · obtain ⟨x, rfl⟩ := number_of_parseNumberValue h
      exact absurd rfl (hrest x)
  · obtain ⟨rfl, hsplit⟩ := parseNullValue_eq_some.mp h
    exact ⟨_, hsplit, rfl⟩

/-- The first character of a value leads the switch to the reader of its kind. -/
theorem parseDispatch_of_valueText (hvalue : ReadsValues value R) (hs : Solid s)
    (hrest : Delimits rest ∨ ∀ x, v ≠ .number x) {t : Text} (hsplit : s = t ++ rest)
    (ht : ValueText d R v t) : (parseDispatch d value).run s = some (v, rest) := by
  obtain ⟨c, cs, rfl, -⟩ := id hs
  simp only [parseDispatch, hs.skipWhitespaces, List.head?_cons]
  have hc : ValueStarts v c := by
    obtain ⟨c', cs', rfl, hstart⟩ := valueText_starts ht
    rwa [(List.cons.inj hsplit).1]
  cases v with
  | object ms =>
    obtain rfl : c = chr '{' := hc
    rw [if_pos rfl]
    exact (parseObjectValue_eq_some hvalue).mpr ⟨ms, t, rfl, hsplit, ht⟩
  | array items =>
    obtain rfl : c = chr '[' := hc
    rw [if_neg (by decide), if_pos rfl]
    exact (parseArrayValue_eq_some hvalue).mpr ⟨items, t, rfl, hsplit, ht⟩
  | string k =>
    obtain rfl : c = chr '"' := hc
    rw [if_neg (by decide), if_neg (by decide), if_pos rfl]
    exact Option.map_eq_some_iff.mpr
      ⟨(k, rest), getQuotedString_eq_some.mpr ⟨t, hsplit, ht⟩, rfl⟩
  | boolean b =>
    change c = chr 'f' ∨ c = chr 't' at hc
    have hother : c ≠ chr '{' ∧ c ≠ chr '[' ∧ c ≠ chr '"' := by
      rcases hc with rfl | rfl <;> decide
    rw [if_neg hother.1, if_neg hother.2.1, if_neg hother.2.2, if_pos hc]
    exact parseBooleanValue_eq_some.mpr ⟨b, rfl, hsplit.trans (congrArg (· ++ rest) ht)⟩
  | number x =>
    change c = chr '-' ∨ isdigit c = true at hc
    have hall : ∀ c : UInt8, (c = chr '-' ∨ isdigit c = true) →
        c ≠ chr '{' ∧ c ≠ chr '[' ∧ c ≠ chr '"' ∧ ¬ (c = chr 'f' ∨ c = chr 't') :=
      forall_byte (by decide +kernel)
    obtain ⟨h₁, h₂, h₃, h₄⟩ := hall c hc
    rw [if_neg h₁, if_neg h₂, if_neg h₃, if_neg h₄, if_pos hc]
    exact (parseNumberValue_eq_some ⟨c, cs, rfl, hc⟩
      (hrest.resolve_right fun h => h x rfl)).mpr ⟨x, t, rfl, hsplit, ht⟩
  | null =>
    obtain rfl : c = chr 'n' := hc
    rw [if_neg (by decide), if_neg (by decide), if_neg (by decide), if_neg (by decide),
      if_neg (by decide), if_pos rfl]
    exact parseNullValue_eq_some.mpr ⟨rfl, hsplit.trans (congrArg (· ++ rest) ht)⟩

/-- The switch in `parse_value` reads values as the grammar has them. What follows a value matters
for a number only. -/
theorem parseDispatch_eq_some (hvalue : ReadsValues value R) (hs : Solid s)
    (hrest : Delimits rest ∨ ∀ x, v ≠ .number x) :
    (parseDispatch d value).run s = some (v, rest) ↔
      ∃ t, s = t ++ rest ∧ ValueText d R v t := by
  refine ⟨valueText_of_parseDispatch hvalue hs hrest, ?_⟩
  rintro ⟨t, hsplit, ht⟩
  exact parseDispatch_of_valueText hvalue hs hrest hsplit ht

end Dispatch

-- ---------------------------------------------------------------------------
-- All levels
-- ---------------------------------------------------------------------------

theorem parseDispatch_skips (value : Reader Json) (s : Text) :
    (parseDispatch d value).run (skipWhitespaces s) = (parseDispatch d value).run s := by
  simp only [parseDispatch, skipWhitespaces_skipWhitespaces]

/-- At every level a value is read as the grammar has it. -/
theorem parseLevels_readsValues (levels : Nat) :
    ReadsValues (parseLevels d levels) (Spells d levels) := by
  induction levels with
  | zero =>
    refine ⟨fun s v rest _ _ => iff_of_false nofun ?_, fun _ => rfl, rfl, fun h => h.elim⟩
    rintro ⟨t, -, h⟩
    exact h
  | succ levels ih =>
    exact ⟨fun s v rest hs hrest => parseDispatch_eq_some ih hs (.inl hrest),
      parseDispatch_skips _, rfl, valueText_starts⟩

section Document

variable {v : Json}

theorem parseValue_skips (s : Text) :
    (parseValue d 0).run (skipWhitespaces s) = (parseValue d 0).run s := parseDispatch_skips _ s

/-- Behind white space a value is read up to its end. -/
theorem parseValue_eq_some {ws s rest : Text} (hws : Spaces ws) (hs : Solid s)
    (hrest : Delimits rest ∨ ∀ x, v ≠ .number x) :
    (parseValue d 0).run (ws ++ s) = some (v, rest) ↔
      ∃ t, s = t ++ rest ∧ Spells d (MAX_NESTING + 1) v t := by
  rw [← parseValue_skips, skipWhitespaces_spaces_append hws hs]
  exact parseDispatch_eq_some (parseLevels_readsValues MAX_NESTING) hs hrest

/-- A parsed document, other than a number, has its text at the start of the string. -/
theorem exists_spells_of_jsonParseString {string : Text} (hv : ∀ x, v ≠ .number x)
    (h : jsonParseString d string = some v) :
    ∃ ws t rest, skipMark (cstring string) = ws ++ (t ++ rest) ∧ Spaces ws ∧
      Spells d (MAX_NESTING + 1) v t := by
  obtain ⟨⟨v', rest⟩, hrun, rfl⟩ := Option.map_eq_some_iff.mp h
  obtain ⟨ws, hws, hsplit, hend⟩ := skipWhitespaces_split (skipMark (cstring string))
  have hsolid : Solid (skipWhitespaces (skipMark (cstring string))) := by
    refine hend.resolve_left fun hnil => ?_
    rw [← parseValue_skips, hnil] at hrun
    cases hrun
  rw [hsplit] at hrun
  obtain ⟨t, ht, hspells⟩ := (parseValue_eq_some hws hsolid (.inr hv)).mp hrun
  exact ⟨ws, t, rest, by rw [← ht, ← hsplit], hws, hspells⟩

/-- A text of a document is parsed, behind white space, if a delimiter follows a number. -/
theorem jsonParseString_of_spells {string ws t rest : Text}
    (hstring : skipMark (cstring string) = ws ++ (t ++ rest)) (hws : Spaces ws)
    (h : Spells d (MAX_NESTING + 1) v t) (hrest : Delimits rest ∨ ∀ x, v ≠ .number x) :
    jsonParseString d string = some v := by
  have hsolid : Solid (t ++ rest) := (spells_solid h).append rest
  rw [jsonParseString, hstring, (parseValue_eq_some hws hsolid hrest).mpr ⟨t, rfl, h⟩]
  rfl

/-- A text that starts with white space or a value has no byte order mark. -/
theorem skipMark_eq_self {ws t : Text} (hws : Spaces ws)
    (ht : ∃ c cs, t = c :: cs ∧ ValueStarts v c) : skipMark (ws ++ t) = ws ++ t := by
  obtain ⟨c, cs, rfl, hc⟩ := ht
  refine if_neg ?_
  rintro ⟨u, hu⟩
  cases ws with
  | nil =>
    have hfirst : c = 0xEF := (List.cons.inj hu).1.symm
    exact hc.solid.2.2.2 hfirst
  | cons c' ws =>
    have hfirst : c' = 0xEF := (List.cons.inj hu).1.symm
    exact absurd (hws c' List.mem_cons_self) (hfirst ▸ by decide)

end Document

end Zigbee
