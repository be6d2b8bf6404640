-- SUMMARY: `process_string` on the block it allocates, with every store checked.
import ZigbeeService.Lib.Block
import ZigbeeService.Parson.Strings

/-!
# Strings in memory

`process_string` writes to a block that is one byte longer than the text between the quotes, and
does not look at its size again. An escape that ran over the closing quote could be written behind
the block; `skip_quotes` has seen to it that there is none.
-/

namespace Zigbee

open CLib Block

/-- The loop of `process_string` with the block it writes to and the position of the next byte. -/
def processLoopBuffer (input : Text) (len : Nat) (rest : Text) (out : Block × Nat) :
    Checked (Option (Block × Nat)) :=
  if rest ≠ [] ∧ input.length - rest.length < len then
    match _h : processChar rest with
    | none => return none
    | some (bytes, rest) => do
      let out ← bytes.foldlM (fun out c => put c out) out
      processLoopBuffer input len rest out
  else return some out
  termination_by rest.length
  decreasing_by
    exact (processChar_lt _h).2

/-- `process_string` with its two blocks. -/
def processStringBuffer (input : Text) (len : Nat) : Checked (Option Block) := do
  match ← processLoopBuffer input len input (malloc (len + 1), 0) with
  | none => return none
  | some (output, n) =>
    let output ← output.store n 0
    -- resize to new length
    let resizedOutput ← output.copy (n + 1)
    return some resizedOutput

/-- `get_quoted_string` with the block it returns. -/
def getQuotedStringBuffer (s : Text) : Checked (Option (Block × Text)) :=
  if s.head? = some (chr '"') then
    match skipQuotes s.tail with
    | none => return none
    | some rest => do
      let new ← processStringBuffer s.tail (s.length - rest.length - 2)
      return new.map (·, rest)
  else return none

-- ---------------------------------------------------------------------------
-- The room for a string
-- ---------------------------------------------------------------------------

variable {b : Block} {body bytes out rest t : Text}

/-- No character is shorter in the document than in the string. -/
theorem CharText.length_le (h : CharText t bytes) : bytes.length ≤ t.length := by
  cases h with
  | plain | short => simp
  | @unicode c t hescape =>
    have hutf8 : (String.utf8EncodeChar c).length ≤ 4 := by
      rw [String.length_utf8EncodeChar]
      exact Char.utf8Size_le_four c
    cases hescape with
    | basic hhex => simp only [List.length_cons, hhex.1]; omega
    | pair _ hhi hlo => simp only [List.length_cons, List.length_append, hhi.1, hlo.1]; omega

theorem Escaped.length_le (h : Escaped body out) : out.length ≤ body.length := by
  induction h with
  | nil => exact Nat.le_refl _
  | cons ht _ ih =>
    have := ht.length_le
    simp only [List.length_append]
    omega

section Rounds

variable {input left : Text} {len : Nat} {out : Block × Nat}
  (hgo : rest ≠ [] ∧ input.length - rest.length < len)

include hgo

theorem processLoop_none (h : processChar rest = none) : processLoop input len rest = none := by
  rw [processLoop, if_pos hgo]
  split
  · rfl
  · next hsome => rw [h] at hsome; cases hsome

theorem processLoop_some (h : processChar rest = some (bytes, left)) :
    processLoop input len rest = (processLoop input len left).map (bytes ++ ·) := by
  rw [processLoop, if_pos hgo]
  split
  · next hnone => rw [h] at hnone; cases hnone
  · next hsome => rw [h] at hsome; cases hsome; rfl

theorem processLoopBuffer_none (h : processChar rest = none) :
    processLoopBuffer input len rest out = .ok none := by
  rw [processLoopBuffer, if_pos hgo]
  split
  · rfl
  · next hsome => rw [h] at hsome; cases hsome

theorem processLoopBuffer_some (h : processChar rest = some (bytes, left)) :
    processLoopBuffer input len rest out =
      bytes.foldlM (fun out c => put c out) out >>= processLoopBuffer input len left := by
  rw [processLoopBuffer, if_pos hgo]
  split
  · next hnone => rw [h] at hnone; cases hnone
  · next hsome => rw [h] at hsome; cases hsome; rfl

end Rounds

/-- The loop writes what it decodes, and there is room for it. -/
theorem processLoopBuffer_eq {input : Text} {len : Nat} (hbody : Balanced body)
    (hlen : len = input.length - rest.length - 1) (hsuffix : body ++ chr '"' :: rest <:+ input)
    {done : Text} (hroom : done.length + body.length ≤ b.size) :
    processLoopBuffer input len (body ++ chr '"' :: rest) (b.written done) =
      .ok ((processLoop input len (body ++ chr '"' :: rest)).map fun out =>
        b.written (done ++ out)) := by
  induction hn : body.length using Nat.strong_induction_on generalizing body done with
  | _ n ih =>
    subst hn
    by_cases hnil : body = []
    · have hle := hsuffix.length_le
      subst hnil
      have hstop : ¬ (([] ++ chr '"' :: rest : Text) ≠ [] ∧
          input.length - ([] ++ chr '"' :: rest : Text).length < len) := by
        rintro ⟨-, hlt⟩
        simp only [List.nil_append, List.length_cons] at hlt hle
        omega
      rw [processLoopBuffer, processLoop, if_neg hstop, if_neg hstop, Option.map_some,
        List.append_nil]
      rfl
    · have hgo : (body ++ chr '"' :: rest : Text) ≠ [] ∧
          input.length - (body ++ chr '"' :: rest : Text).length < len := by
        have hle := hsuffix.length_le
        have hpos := List.length_pos_iff.mpr hnil
        simp only [List.length_append, List.length_cons] at hle ⊢
        exact ⟨by simp, by omega⟩
      cases hrun : processChar (body ++ chr '"' :: rest) with
      | none =>
        rw [processLoopBuffer_none hgo hrun, processLoop_none hgo hrun]
        rfl
      | some round =>
        obtain ⟨bytes, left⟩ := round
        obtain ⟨t, body', rfl, rfl, hbody', ht⟩ := (processChar_balanced hbody hnil).mp hrun
        have hpos := List.length_pos_iff.mpr ht.ne_nil
        have hle := ht.length_le
        rw [List.length_append] at hroom
        have hsuffix' : body' ++ chr '"' :: rest <:+ input :=
          .trans ⟨t, by rw [List.append_assoc]⟩ hsuffix
        have hroom' : (done ++ bytes).length + body'.length ≤ b.size := by
          rw [List.length_append]
          omega
        rw [processLoopBuffer_some hgo hrun, processLoop_some hgo hrun,
          putAll_written bytes (by omega), Checked.ok_bind,
          ih _ (by rw [List.length_append]; omega) hbody' hsuffix' hroom' rfl, Option.map_map]
        simp only [Function.comp_def, List.append_assoc]

/-- The block that is returned holds the decoded bytes and a NUL, and has no room behind them. -/
theorem processStringBuffer_eq (hbody : Balanced body) (rest : Text) {len : Nat}
    (hlen : len = body.length) :
    processStringBuffer (body ++ chr '"' :: rest) len =
      .ok ((processString (body ++ chr '"' :: rest) len).map fun out =>
        ⟨(out ++ [0]).map some⟩) := by
  have hsize : (malloc (len + 1)).size = body.length + 1 := by
    rw [Block.size, malloc, List.length_replicate, hlen]
  have hlen' : len = (body ++ chr '"' :: rest).length - rest.length - 1 := by
    rw [List.length_append, List.length_cons]
    omega
  have hroom : ([] : Text).length + body.length ≤ (malloc (len + 1)).size := by
    rw [hsize, List.length_nil]
    omega
  have hloop := processLoopBuffer_eq hbody hlen' List.suffix_rfl hroom
  rw [show (malloc (len + 1)).written [] = (malloc (len + 1), 0) from rfl] at hloop
  rw [processStringBuffer, hloop, Checked.ok_bind, processString]
  cases hout : processLoop (body ++ chr '"' :: rest) len (body ++ chr '"' :: rest) with
  | none => rfl
  | some out =>
    rw [hlen'] at hout
    have hle := ((processLoop_eq_some hbody List.suffix_rfl).mp hout).length_le
    have hfits : (out ++ [0]).length ≤ (malloc (len + 1)).size := by
      rw [List.length_append, List.length_singleton]
      omega
    have hcopy := copy_filled hfits
    rw [List.length_append, List.length_singleton] at hcopy
    simp only [Option.map_some, List.nil_append, written]
    rw [store_filled 0 rfl (by omega), Checked.ok_bind, hcopy]
    rfl

/-- On every text `get_quoted_string` stays inside its two blocks. It fails where the text does not
start with a quoted string, and else returns a block that holds the C string and is at least one byte
shorter than what was read. -/
theorem getQuotedStringBuffer_refines (s : Text) :
    (getQuotedString s = none ∧ getQuotedStringBuffer s = .ok none) ∨
      ∃ k rest b, getQuotedString s = some (k, rest) ∧
        getQuotedStringBuffer s = .ok (some (b, rest)) ∧ b.string = .ok k ∧
        b.size + rest.length < s.length := by
  unfold getQuotedString getQuotedStringBuffer
  by_cases hhead : s.head? = some (chr '"')
  · obtain ⟨s, rfl⟩ := List.head?_eq_some_iff.mp hhead
    simp only [List.head?_cons, if_true, List.tail_cons]
    cases hskip : skipQuotes s with
    | none => exact .inl ⟨rfl, rfl⟩
    | some rest =>
      obtain ⟨body, rfl, hbody⟩ := skipQuotes_eq_some.mp hskip
      have hlen : (chr '"' :: (body ++ chr '"' :: rest)).length - rest.length - 2 = body.length := by
        simp only [List.length_cons, List.length_append]
        omega
      have hbuffer := processStringBuffer_eq hbody rest hlen
      dsimp only
      rw [hbuffer]
      cases hout : processString (body ++ chr '"' :: rest)
          ((chr '"' :: (body ++ chr '"' :: rest)).length - rest.length - 2) with
      | none => exact .inl ⟨rfl, rfl⟩
      | some out =>
        have hle := ((processString_eq_some hbody).mp hout).length_le
        refine .inr ⟨cstring out, rest, ⟨(out ++ [0]).map some⟩, rfl, rfl, ?_, ?_⟩
        · rw [Block.string, List.map_append, List.map_singleton]
          exact stringOf_terminated out []
        · simp only [Block.size, List.length_map, List.length_append, List.length_cons,
            List.length_nil]
          omega
  · rw [if_neg hhead, if_neg hhead]
    exact .inl ⟨rfl, rfl⟩

end Zigbee
