-- SUMMARY: The serializer of parson.c: one pass measures a document, a second one fills a block of that size.
import ZigbeeService.Lib.Output
import ZigbeeService.Parson.Parse

/-!
# Serializing

`json_serialize_to_string` runs `json_serialize_to_buffer_r` once without a buffer to learn the size,
allocates a block, measures again and then writes. The text of a document says what both passes are
about: its length is what the first one counts, and the second one fills the block with it.
-/

namespace Zigbee

open CLib

-- ---------------------------------------------------------------------------
-- The functions of parson.c
-- ---------------------------------------------------------------------------

/-- `NUM_BUF_SIZE`. -/
def NUM_BUF_SIZE : Nat := 64

/-- A digit as it stands in `\u001f`. -/
def hexDigit (n : Nat) : UInt8 := UInt8.ofNat (if n < 10 then 48 + n else 87 + n)

/-- The characters that `json_serialize_string` does not copy, and what it writes for them. -/
def escapeText (c : UInt8) : Option Text :=
  if c = chr '"' then some [chr '\\', chr '"']
  else if c = chr '\\' then some [chr '\\', chr '\\']
  else if c = 8 then some (lit "\\b")
  else if c = 12 then some (lit "\\f")
  else if c = 10 then some (lit "\\n")
  else if c = 13 then some (lit "\\r")
  else if c = 9 then some (lit "\\t")
  else if c < 0x20 then
    some (lit "\\u00" ++ [hexDigit (c.toNat / 16), hexDigit (c.toNat % 16)])
  else none

/-- `json_serialize_string`. -/
def jsonSerializeString (s : Text) (o : Output) : Checked Output := do
  let o ← o.appendString [chr '"']
  let o ← s.foldlM (fun o c => match escapeText c with
    | some text => o.appendString text
    | none => o.appendChar c) o
  o.appendString [chr '"']

/-- `append_indent`. -/
def appendIndent (level : Nat) (o : Output) : Checked Output :=
  (List.range level).foldlM (fun o _ => o.appendString (lit "    ")) o

/-- Output under a condition, such as that the serialization is a pretty one. -/
def putWhen (b : Bool) (w : Output → Checked Output) (o : Output) : Checked Output :=
  if b then w o else .ok o

/-- The loop over the items of an array or the members of an object. -/
def serializeItems (pretty : Bool) (level : Nat) :
    List (Output → Checked Output) → Output → Checked Output
  | [], o => .ok o
  | item :: items, o => do
    let o ← putWhen pretty (appendIndent (level + 1)) o
    let o ← item o
    let o ← putWhen (!items.isEmpty) (·.appendString [chr ',']) o
    let o ← putWhen pretty (·.appendString [10]) o
    serializeItems pretty level items o

/-- An array or an object, given what writes its items or members. -/
def serializeBracketed (opening closing : UInt8) (pretty : Bool) (level : Nat)
    (items : List (Output → Checked Output)) (o : Output) : Checked Output := do
  let o ← o.appendString [opening]
  let o ← putWhen (!items.isEmpty && pretty) (·.appendString [10]) o
  let o ← serializeItems pretty level items o
  let o ← putWhen (!items.isEmpty && pretty) (appendIndent level) o
  o.appendString [closing]

/-- A member, given what writes its value. -/
def serializeMember (pretty : Bool) (key : Text) (value : Output → Checked Output) (o : Output) :
    Checked Output := do
  let o ← jsonSerializeString key o
  let o ← o.appendString [chr ':']
  let o ← putWhen pretty (·.appendString [chr ' ']) o
  value o

variable (d : Doubles)

/-- A number goes through `num_buf` where there is no buffer. -/
def serializeNumber (x : Rat) (o : Output) : Checked Output :=
  match o.buffer with
  | none => do
    let text ← sprintf NUM_BUF_SIZE (d.printf x)
    o.appendString text
  | some _ => o.appendString (d.printf x)

mutual

/-- `json_serialize_to_buffer_r`. -/
def jsonSerializeToBufferR (pretty : Bool) : Json → (level : Nat) → Output → Checked Output
  | .array items, level =>
    serializeBracketed (chr '[') (chr ']') pretty level (itemWriters pretty items (level + 1))
  | .object ms, level =>
    -- the value of a member is looked up by its name
    let values := memberWriters pretty ms (level + 1)
    serializeBracketed (chr '{') (chr '}') pretty level (values.map fun m =>
      serializeMember pretty m.1 ((assocGet m.1 values).getD m.2))
  | .string s, _ => jsonSerializeString s
  | .boolean b, _ => (·.appendString (if b then lit "true" else lit "false"))
  | .number x, _ => serializeNumber d x
  | .null, _ => (·.appendString (lit "null"))

/-- What writes the items of an array. -/
def itemWriters (pretty : Bool) : List Json → Nat → List (Output → Checked Output)
  | [], _ => []
  | v :: items, level => jsonSerializeToBufferR pretty v level :: itemWriters pretty items level

/-- What writes the values of the members of an object, under their names. -/
def memberWriters (pretty : Bool) :
    List (Text × Json) → Nat → List (Text × (Output → Checked Output))
  | [], _ => []
  | (key, v) :: ms, level =>
    (key, jsonSerializeToBufferR pretty v level) :: memberWriters pretty ms level

end

/-- `json_serialization_size`, and with `pretty` the size of `json_serialization_size_pretty`. -/
def jsonSerializationSize (pretty : Bool) (v : Json) : Checked Nat := do
  let o ← jsonSerializeToBufferR d pretty v 0 ⟨none, 0⟩
  -- `res + 1` is an `int`
  let size ← o.add 1 none
  return size.total

/-- `json_serialize_to_buffer`, with the size of the buffer; its failure is `none`. -/
def jsonSerializeToBuffer (pretty : Bool) (v : Json) (buf : Block) (size : Nat) :
    Checked (Option Block) := do
  let needed ← jsonSerializationSize d pretty v
  if needed = 0 ∨ size < needed then return none
  let o ← jsonSerializeToBufferR d pretty v 0 ⟨some (buf, 0), 0⟩
  return o.buffer.map Prod.fst

/-- `json_serialize_to_string`, and with `pretty` `json_serialize_to_string_pretty`. -/
def jsonSerializeToString (pretty : Bool) (v : Json) : Checked (Option Block) := do
  let size ← jsonSerializationSize d pretty v
  if size = 0 then return none
  jsonSerializeToBuffer d pretty v (Block.malloc size) size

theorem itemWriters_eq_map (pretty : Bool) (items : List Json) (level : Nat) :
    itemWriters d pretty items level =
      items.map fun v => jsonSerializeToBufferR d pretty v level := by
  induction items with
  | nil => rfl
  | cons v items ih => rw [itemWriters, ih, List.map_cons]

theorem memberWriters_eq_map (pretty : Bool) (ms : Members) (level : Nat) :
    memberWriters d pretty ms level =
      ms.map (Prod.map id fun v => jsonSerializeToBufferR d pretty v level) := by
  induction ms with
  | nil => rfl
  | cons m ms ih =>
    obtain ⟨key, v⟩ := m
    rw [memberWriters, ih, List.map_cons]
    rfl

-- ---------------------------------------------------------------------------
-- The text of a document
-- ---------------------------------------------------------------------------

/-- A string in quotes, escaped where it has to be. -/
def quoteText (s : Text) : Text :=
  [chr '"'] ++ (s.flatMap (fun c => (escapeText c).getD [c]) ++ [chr '"'])

/-- The white space in front of a line. -/
def indentText (level : Nat) : Text := (List.range level).flatMap fun _ => lit "    "

/-- The texts of items, one behind the other with commas between them. -/
def itemsText (pretty : Bool) (level : Nat) : List Text → Text
  | [] => []
  | t :: ts =>
    (if pretty then indentText (level + 1) else []) ++ (t ++
      ((if !ts.isEmpty then [chr ','] else []) ++ ((if pretty then [10] else []) ++
        itemsText pretty level ts)))

/-- The texts of items between brackets. -/
def bracketedText (opening closing : UInt8) (pretty : Bool) (level : Nat) (ts : List Text) : Text :=
  [opening] ++ ((if !ts.isEmpty && pretty then [10] else []) ++ (itemsText pretty level ts ++
    ((if !ts.isEmpty && pretty then indentText level else []) ++ [closing])))

/-- A name, a colon and the text of a value. -/
def memberText (pretty : Bool) (key t : Text) : Text :=
  quoteText key ++ ([chr ':'] ++ ((if pretty then [chr ' '] else []) ++ t))

mutual

/-- The text of a document. -/
def jsonText (pretty : Bool) : Json → (level : Nat) → Text
  | .array items, level =>
    bracketedText (chr '[') (chr ']') pretty level (itemTexts pretty items (level + 1))
  | .object ms, level =>
    bracketedText (chr '{') (chr '}') pretty level (memberTexts pretty ms (level + 1))
  | .string s, _ => quoteText s
  | .boolean b, _ => if b then lit "true" else lit "false"
  | .number x, _ => d.printf x
  | .null, _ => lit "null"

/-- The texts of the items of an array. -/
def itemTexts (pretty : Bool) : List Json → Nat → List Text
  | [], _ => []
  | v :: items, level => jsonText pretty v level :: itemTexts pretty items level

/-- The texts of the members of an object. -/
def memberTexts (pretty : Bool) : List (Text × Json) → Nat → List Text
  | [], _ => []
  | (key, v) :: ms, level =>
    memberText pretty key (jsonText pretty v level) :: memberTexts pretty ms level

end

theorem itemTexts_eq_map (pretty : Bool) (items : List Json) (level : Nat) :
    itemTexts d pretty items level = items.map fun v => jsonText d pretty v level := by
  induction items with
  | nil => rfl
  | cons v items ih => rw [itemTexts, ih, List.map_cons]

theorem memberTexts_eq_map (pretty : Bool) (ms : Members) (level : Nat) :
    memberTexts d pretty ms level =
      ms.map fun m => memberText pretty m.1 (jsonText d pretty m.2 level) := by
  induction ms with
  | nil => rfl
  | cons m ms ih => rw [memberTexts, ih, List.map_cons]

/-- A number that is printed as a C string and fits a buffer of `NUM_BUF_SIZE` bytes. -/
structure Doubles.Fits (x : Rat) : Prop where
  lt : (d.printf x).length < NUM_BUF_SIZE
  nul : 0 ∉ d.printf x

-- ---------------------------------------------------------------------------
-- Both passes put out the text
-- ---------------------------------------------------------------------------

section Puts

open Output

variable {d} {pretty : Bool}

theorem jsonSerializeString_puts (s : Text) : PutsString (jsonSerializeString s) (quoteText s) := by
  have hchar : ∀ c ∈ s, Puts (fun o => match escapeText c with
      | some text => appendString text o
      | none => appendChar c o) ((escapeText c).getD [c]) := by
    intro c _
    cases escapeText c with
    | some text => exact (appendString_puts text).puts
    | none => exact appendChar_puts c
  exact (appendString_puts _).puts.bind_string
    ((puts_foldlM hchar).bind_string (appendString_puts _))

theorem appendIndent_puts (level : Nat) : Puts (appendIndent level) (indentText level) :=
  puts_foldlM fun _ _ => (appendString_puts _).puts

theorem putWhen_puts {b : Bool} {w : Output → Checked Output} {t : Text} (h : Puts w t) :
    Puts (putWhen b w) (if b then t else []) := by
  cases b with
  | true => exact h
  | false => exact puts_nil

theorem serializeItems_puts (level : Nat) {ws : List (Output → Checked Output)} {ts : List Text}
    (h : List.Forall₂ PutsString ws ts) :
    Puts (serializeItems pretty level ws) (itemsText pretty level ts) := by
  induction h with
  | nil => exact puts_nil
  | @cons w t ws ts hw hrest ih =>
    have hempty : ws.isEmpty = ts.isEmpty := by cases hrest <;> rfl
    simp only [itemsText, ← hempty]
    exact (putWhen_puts (appendIndent_puts _)).bind (hw.puts.bind
      ((putWhen_puts (appendString_puts _).puts).bind
        ((putWhen_puts (appendString_puts _).puts).bind ih)))

theorem serializeBracketed_puts (opening closing : UInt8) (level : Nat)
    {ws : List (Output → Checked Output)} {ts : List Text} (h : List.Forall₂ PutsString ws ts) :
    PutsString (serializeBracketed opening closing pretty level ws)
      (bracketedText opening closing pretty level ts) := by
  have hempty : ws.isEmpty = ts.isEmpty := by cases h <;> rfl
  unfold serializeBracketed bracketedText
  rw [← hempty]
  exact (appendString_puts _).puts.bind_string
    ((putWhen_puts (appendString_puts _).puts).bind_string
      ((serializeItems_puts level h).bind_string
        ((putWhen_puts (appendIndent_puts _)).bind_string (appendString_puts _))))

theorem serializeMember_puts (key : Text) {w : Output → Checked Output} {t : Text}
    (h : PutsString w t) : PutsString (serializeMember pretty key w) (memberText pretty key t) :=
  (jsonSerializeString_puts key).puts.bind_string ((appendString_puts _).puts.bind_string
    ((putWhen_puts (appendString_puts _).puts).bind_string h))

theorem serializeNumber_puts {x : Rat} (h : d.Fits x) :
    PutsString (serializeNumber d x) (d.printf x) := by
  have hsprintf : sprintf NUM_BUF_SIZE (d.printf x) = .ok (d.printf x) := if_pos h.lt
  refine ⟨fun n hn => ?_, (appendString_puts (d.printf x)).writes⟩
  rw [serializeNumber]
  dsimp only
  rw [hsprintf]
  exact (appendString_puts (d.printf x)).counts n hn

/-- Both passes put out the text of the document, at every depth. -/
theorem jsonSerializeToBufferR_puts {levels : Nat} {v : Json} (h : WellFormed d.Fits levels v)
    (level : Nat) :
    PutsString (jsonSerializeToBufferR d pretty v level) (jsonText d pretty v level) := by
  induction levels generalizing v level with
  | zero => exact h.elim
  | succ levels ih =>
    cases v with
    | null =>
      simp only [jsonSerializeToBufferR, jsonText]
      exact appendString_puts _
    | boolean b =>
      simp only [jsonSerializeToBufferR, jsonText]
      exact appendString_puts _
    | number x =>
      simp only [jsonSerializeToBufferR, jsonText]
      exact serializeNumber_puts h
    | string s =>
      simp only [jsonSerializeToBufferR, jsonText]
      exact jsonSerializeString_puts s
    | array items =>
      simp only [jsonSerializeToBufferR, jsonText, itemWriters_eq_map, itemTexts_eq_map]
      refine serializeBracketed_puts _ _ level ?_
      rw [List.forall₂_map_left_iff, List.forall₂_map_right_iff, List.forall₂_same]
      exact fun v hv => ih (h v hv) _
    | object ms =>
      obtain ⟨hnodup, hms⟩ := h
      simp only [jsonSerializeToBufferR, jsonText, memberWriters_eq_map, memberTexts_eq_map,
        List.map_map]
      refine serializeBracketed_puts _ _ level ?_
      rw [List.forall₂_map_left_iff, List.forall₂_map_right_iff, List.forall₂_same]
      intro m hm
      -- the first value under the name is the one of this member
      have hget : assocGet m.1 ms = some m.2 := assocGet_of_mem hnodup hm
      simp only [Function.comp_apply, Prod.map_fst, id_eq, assocGet_map, hget, Option.map_some,
        Option.getD_some]
      exact serializeMember_puts m.1 (ih (hms m hm).2 _)

end Puts

-- ---------------------------------------------------------------------------
-- The block that is returned
-- ---------------------------------------------------------------------------

theorem nul_notMem_escape {c : UInt8} (hc : c ≠ 0) : 0 ∉ (escapeText c).getD [c] := by
  have hall : ∀ c : UInt8, c ≠ 0 → 0 ∉ (escapeText c).getD [c] := forall_byte (by decide +kernel)
  exact hall c hc

theorem nul_notMem_quoteText {s : Text} (h : 0 ∉ s) : 0 ∉ quoteText s := by
  simp only [quoteText, List.mem_append, List.mem_flatMap, List.mem_singleton, not_or]
  refine ⟨by decide, ?_, by decide⟩
  rintro ⟨c, hc, hmem⟩
  exact nul_notMem_escape (fun hzero => h (hzero ▸ hc)) hmem

theorem nul_notMem_indentText (level : Nat) : 0 ∉ indentText level := by
  rw [indentText, List.mem_flatMap]
  rintro ⟨-, -, h⟩
  exact absurd h (by decide)

theorem nul_notMem_itemsText {pretty : Bool} {level : Nat} {ts : List Text} (h : ∀ t ∈ ts, 0 ∉ t) :
    0 ∉ itemsText pretty level ts := by
  have hwhen : ∀ {b : Bool} {t : Text}, 0 ∉ t → 0 ∉ if b then t else [] := by
    intro b t ht
    cases b with
    | true => exact ht
    | false => exact List.not_mem_nil
  induction ts with
  | nil => exact List.not_mem_nil
  | cons t ts ih =>
    rw [List.forall_mem_cons] at h
    simp only [itemsText, List.mem_append, not_or]
    exact ⟨hwhen (nul_notMem_indentText _), h.1, hwhen (by decide), hwhen (by decide), ih h.2⟩

theorem nul_notMem_bracketedText {opening closing : UInt8} (ho : opening ≠ 0) (hc : closing ≠ 0)
    {pretty : Bool} {level : Nat} {ts : List Text} (h : ∀ t ∈ ts, 0 ∉ t) :
    0 ∉ bracketedText opening closing pretty level ts := by
  simp only [bracketedText, List.mem_append, List.mem_singleton, not_or]
  refine ⟨ho.symm, ?_, nul_notMem_itemsText h, ?_, hc.symm⟩
  · split <;> decide
  · split
    · exact nul_notMem_indentText _
    · exact List.not_mem_nil

theorem nul_notMem_jsonText {d : Doubles} {pretty : Bool} {levels : Nat} {v : Json}
    (h : WellFormed d.Fits levels v) (level : Nat) : 0 ∉ jsonText d pretty v level := by
  induction levels generalizing v level with
  | zero => exact h.elim
  | succ levels ih =>
    cases v with
    | null =>
      rw [jsonText]
      decide
    | boolean b =>
      rw [jsonText]
      cases b <;> decide
    | number x =>
      rw [jsonText]
      exact h.nul
    | string s =>
      rw [jsonText]
      exact nul_notMem_quoteText h
    | array items =>
      rw [jsonText, itemTexts_eq_map]
      refine nul_notMem_bracketedText (by decide) (by decide) fun t ht => ?_
      obtain ⟨v, hv, rfl⟩ := List.mem_map.mp ht
      exact ih (h v hv) _
    | object ms =>
      rw [jsonText, memberTexts_eq_map]
      refine nul_notMem_bracketedText (by decide) (by decide) fun t ht => ?_
      obtain ⟨m, hm, rfl⟩ := List.mem_map.mp ht
      obtain ⟨hname, hvalue⟩ := h.2 m hm
      simp only [memberText, List.mem_append, List.mem_singleton, not_or]
      refine ⟨nul_notMem_quoteText hname, by decide, ?_, ih hvalue _⟩
      split <;> decide

section Block

variable {d : Doubles} {pretty : Bool} {levels : Nat} {v : Json}

/-- The first pass gives the size of the text with its NUL. -/
theorem jsonSerializationSize_eq_ok (h : WellFormed d.Fits levels v)
    (hlen : (jsonText d pretty v 0).length + 1 < 2 ^ 31) :
    jsonSerializationSize d pretty v = .ok ((jsonText d pretty v 0).length + 1) := by
  have hputs : Output.PutsString (jsonSerializeToBufferR d pretty v 0) (jsonText d pretty v 0) :=
    jsonSerializeToBufferR_puts h 0
  have hcount := hputs.counts 0 (by omega)
  rw [Nat.zero_add] at hcount
  rw [jsonSerializationSize, hcount, Checked.ok_bind, Output.add, if_pos hlen]
  rfl

/-- Where the buffer is large enough the text and its NUL are written to its start, and nothing is
written behind them. -/
theorem jsonSerializeToBuffer_of_le (h : WellFormed d.Fits levels v)
    (hlen : (jsonText d pretty v 0).length + 1 < 2 ^ 31) {buf : Block}
    (hsize : (jsonText d pretty v 0).length + 1 ≤ buf.size) :
    ∃ b, jsonSerializeToBuffer d pretty v buf buf.size = .ok (some b) ∧
      b.HoldsString (jsonText d pretty v 0) (buf.size - ((jsonText d pretty v 0).length + 1)) ∧
      b.cells.drop ((jsonText d pretty v 0).length + 1) =
        buf.cells.drop ((jsonText d pretty v 0).length + 1) := by
  have hputs : Output.PutsString (jsonSerializeToBufferR d pretty v 0) (jsonText d pretty v 0) :=
    jsonSerializeToBufferR_puts h 0
  obtain ⟨b, hrun, hb, hframe⟩ :=
    hputs.writes buf [] buf.size 0 ⟨buf.cells, rfl, rfl⟩ hsize (by omega)
  rw [List.length_nil, Nat.zero_add] at hframe
  refine ⟨b, ?_, ⟨nul_notMem_jsonText h 0, hb⟩, hframe⟩
  rw [jsonSerializeToBuffer, jsonSerializationSize_eq_ok h hlen, Checked.ok_bind,
    if_neg (by omega)]
  rw [List.length_nil] at hrun
  rw [hrun]
  rfl

/-- `json_serialize_to_string` returns a block of exactly the bytes that the text of the document
needs, and the block holds that text. -/
theorem jsonSerializeToString_eq_ok (h : WellFormed d.Fits levels v)
    (hlen : (jsonText d pretty v 0).length + 1 < 2 ^ 31) :
    ∃ b, jsonSerializeToString d pretty v = .ok (some b) ∧
      b.HoldsString (jsonText d pretty v 0) 0 := by
  have hsize : (Block.malloc ((jsonText d pretty v 0).length + 1)).size =
      (jsonText d pretty v 0).length + 1 := List.length_replicate
  obtain ⟨b, hrun, hb, -⟩ := jsonSerializeToBuffer_of_le h hlen hsize.ge
  rw [hsize] at hrun hb
  rw [Nat.sub_self] at hb
  refine ⟨b, ?_, hb⟩
  rw [jsonSerializeToString, jsonSerializationSize_eq_ok h hlen, Checked.ok_bind,
    if_neg (Nat.succ_ne_zero _), hrun]

end Block

end Zigbee
