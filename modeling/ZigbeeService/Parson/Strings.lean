-- SUMMARY: Quoted strings as parson reads them, and the grammar they follow.
import ZigbeeService.Parson.Unicode

/-!
# Quoted strings

`get_quoted_string` finds the closing quote first and then decodes what stands before it into a
buffer. Both passes have to agree on what an escape is.
-/

namespace Zigbee

open CLib

-- ---------------------------------------------------------------------------
-- The functions of parson.c
-- ---------------------------------------------------------------------------

/-- The escapes of one character: what stands behind the backslash, and what it stands for. -/
def shortEscapes : List (UInt8 × UInt8) :=
  [(chr '"', chr '"'), (chr '\\', chr '\\'), (chr '/', chr '/'), (chr 'b', 8), (chr 'f', 12),
    (chr 'n', 10), (chr 'r', 13), (chr 't', 9)]

/-- One round of the loop in `process_string`: the bytes it writes, and the text it goes on with. -/
def processChar : Text → Option (Text × Text)
  | [] => none
  | c :: input =>
    if c = chr '\\' then
      match input with
      | [] => none
      | e :: input =>
        if e = chr 'u' then parseUtf16 input
        else (shortEscapes.lookup e).map fun b => ([b], input)
    else if c < 0x20 then none
    else some ([c], input)

/-- `skip_quotes` behind the opening quote: the text behind the closing quote. -/
def skipQuotes : Text → Option Text
  | [] => none
  | c :: s =>
    if c = chr '"' then some s
    else if c = chr '\\' then
      match s with
      | [] => none
      | _ :: s => skipQuotes s
    else skipQuotes s

-- ---------------------------------------------------------------------------
-- The characters of a string
-- ---------------------------------------------------------------------------

/-- A character as it may stand between quotes, and the bytes it stands for. -/
inductive CharText : Text → Text → Prop where
  | plain {c : UInt8} : 0x20 ≤ c → c ≠ chr '"' → c ≠ chr '\\' → CharText [c] [c]
  | short {e b : UInt8} : (e, b) ∈ shortEscapes → CharText [chr '\\', e] [b]
  | unicode {c : Char} {t : Text} : UnicodeEscape c t → CharText t (String.utf8EncodeChar c)

theorem mem_shortEscapes_iff {e b : UInt8} :
    (e, b) ∈ shortEscapes ↔ shortEscapes.lookup e = some b := by
  refine ⟨fun h => ?_, fun h => ?_⟩
  · simp only [shortEscapes, List.mem_cons, List.not_mem_nil, or_false, Prod.mk.injEq] at h
    obtain ⟨rfl, rfl⟩ | ⟨rfl, rfl⟩ | ⟨rfl, rfl⟩ | ⟨rfl, rfl⟩ | ⟨rfl, rfl⟩ | ⟨rfl, rfl⟩ |
      ⟨rfl, rfl⟩ | ⟨rfl, rfl⟩ := h
    all_goals rfl
  · have hall : ∀ e : UInt8, ∀ b ∈ shortEscapes.lookup e, (e, b) ∈ shortEscapes :=
      forall_byte (by decide +kernel)
    exact hall e b h

/-- There is no short escape `u`. -/
theorem ne_u_of_mem_shortEscapes {e b : UInt8} (h : (e, b) ∈ shortEscapes) : e ≠ chr 'u' := by
  rintro rfl
  have hnone : shortEscapes.lookup (chr 'u') = none := by decide
  rw [mem_shortEscapes_iff, hnone] at h
  cases h

section Chars

variable {s bytes rest : Text}

theorem processChar_backslash {e : UInt8} {input : Text} :
    processChar (chr '\\' :: e :: input) =
      if e = chr 'u' then parseUtf16 input
      else (shortEscapes.lookup e).map fun b => ([b], input) := by
  rw [processChar.eq_def]
  rfl

theorem processChar_of_ne {c : UInt8} (hc : c ≠ chr '\\') (input : Text) :
    processChar (c :: input) = if c < 0x20 then none else some ([c], input) := by
  rw [processChar.eq_def]
  exact if_neg hc

theorem CharText.ne_nil (h : CharText s bytes) : s ≠ [] := by
  cases h with
  | plain => exact List.cons_ne_nil _ _
  | short => exact List.cons_ne_nil _ _
  | unicode h => cases h <;> exact List.cons_ne_nil _ _

/-- A round of the loop takes one character, unless it stands at a quote. -/
theorem processChar_eq_some (hs : s.head? ≠ some (chr '"')) :
    processChar s = some (bytes, rest) ↔ ∃ t, s = t ++ rest ∧ CharText t bytes := by
  constructor
  · intro h
    match s with
    | [] => cases h
    | c :: input =>
      by_cases hc : c = chr '\\'
      · subst hc
        match input with
        | [] => cases h
        | e :: input =>
          rw [processChar_backslash] at h
          split at h
          · next he =>
            obtain ⟨c, t, ht, hescape, rfl⟩ := parseUtf16_eq_some.mp h
            exact ⟨t, by rw [he, ht], .unicode hescape⟩
          · obtain ⟨b, hb, heq⟩ := Option.map_eq_some_iff.mp h
            obtain ⟨rfl, rfl⟩ := Prod.mk.inj heq
            exact ⟨[chr '\\', e], rfl, .short (mem_shortEscapes_iff.mpr hb)⟩
      · rw [processChar_of_ne hc] at h
        split at h
        · cases h
        · next hlow =>
          obtain ⟨rfl, rfl⟩ := Prod.mk.inj (Option.some_inj.mp h)
          have hquote : c ≠ chr '"' := fun heq => hs (by rw [List.head?_cons, heq])
          exact ⟨[c], rfl, .plain (UInt8.not_lt.mp hlow) hquote hc⟩
  · rintro ⟨t, rfl, h⟩
    cases h with
    | plain hlow hquote hc =>
      rw [List.singleton_append, processChar_of_ne hc, if_neg (UInt8.not_lt.mpr hlow)]
    | short h =>
      rw [List.cons_append, List.singleton_append, processChar_backslash,
        if_neg (ne_u_of_mem_shortEscapes h), mem_shortEscapes_iff.mp h, Option.map_some]
    | @unicode c t h =>
      obtain ⟨u, hu⟩ : ∃ u, t ++ rest = chr '\\' :: chr 'u' :: u := by cases h <;> exact ⟨_, rfl⟩
      rw [hu, processChar_backslash, if_pos rfl]
      exact parseUtf16_eq_some.mpr ⟨c, t, hu.symm, h, rfl⟩

/-- What is left behind a round of the loop is shorter. -/
theorem processChar_lt (h : processChar s = some (bytes, rest)) :
    rest <:+ s ∧ rest.length < s.length := by
  by_cases hs : s.head? = some (chr '"')
  · obtain ⟨t, rfl⟩ := List.head?_eq_some_iff.mp hs
    have hrest : some ([chr '"'], t) = some (bytes, rest) := h
    cases hrest
    exact ⟨List.suffix_cons _ _, Nat.lt_succ_self _⟩
  · obtain ⟨t, rfl, ht⟩ := (processChar_eq_some hs).mp h
    have hpos := List.length_pos_iff.mpr ht.ne_nil
    exact ⟨List.suffix_append _ _, by rw [List.length_append]; omega⟩

end Chars

-- ---------------------------------------------------------------------------
-- Whole strings
-- ---------------------------------------------------------------------------

/-- The loop of `process_string` over `input`, of which `rest` is left: the bytes it writes. -/
def processLoop (input : Text) (len : Nat) (rest : Text) : Option Text :=
  if rest ≠ [] ∧ input.length - rest.length < len then
    match _h : processChar rest with
    | none => none
    | some (bytes, rest) => (processLoop input len rest).map (bytes ++ ·)
  else some []
  termination_by rest.length
  decreasing_by
    exact (processChar_lt _h).2

/-- `process_string`. -/
def processString (input : Text) (len : Nat) : Option Text := processLoop input len input

/-- `get_quoted_string`: the C string between the quotes. -/
def getQuotedString (s : Text) : Option (Text × Text) :=
  if s.head? = some (chr '"') then
    match skipQuotes s.tail with
    | none => none
    | some rest =>
      -- the length without quotes
      (processString s.tail (s.length - rest.length - 2)).map fun out => (cstring out, rest)
  else none

/-- The characters of a string, one after the other, and the bytes they stand for. -/
inductive Escaped : Text → Text → Prop where
  | nil : Escaped [] []
  | cons {t bytes body out : Text} :
      CharText t bytes → Escaped body out → Escaped (t ++ body) (bytes ++ out)

/-- A string in quotes, and the C string it stands for: a NUL ends it. -/
def Quoted (k q : Text) : Prop :=
  ∃ body out, Escaped body out ∧ k = cstring out ∧ q = chr '"' :: (body ++ [chr '"'])

/-- No quote stands outside an escape, and no escape is cut off. -/
inductive Balanced : Text → Prop where
  | nil : Balanced []
  | plain {c : UInt8} {body : Text} :
      c ≠ chr '"' → c ≠ chr '\\' → Balanced body → Balanced (c :: body)
  | escape {e : UInt8} {body : Text} : Balanced body → Balanced (chr '\\' :: e :: body)

section Balanced

variable {body rest s t : Text}

/-- `skip_quotes` stops behind the first quote that no backslash precedes. -/
theorem skipQuotes_eq_some :
    skipQuotes s = some rest ↔ ∃ body, s = body ++ chr '"' :: rest ∧ Balanced body := by
  constructor
  · intro h
    fun_induction skipQuotes s with
    | case1 => cases h
    | case2 s => cases h; exact ⟨[], rfl, .nil⟩
    | case3 => cases h
    | case4 e s _ ih =>
      obtain ⟨body, rfl, hbody⟩ := ih h
      exact ⟨chr '\\' :: e :: body, rfl, .escape hbody⟩
    | case5 c s hquote hslash ih =>
      obtain ⟨body, rfl, hbody⟩ := ih h
      exact ⟨c :: body, rfl, .plain hquote hslash hbody⟩
  · rintro ⟨body, rfl, h⟩
    induction h with
    | nil => rw [List.nil_append, skipQuotes.eq_def]; exact if_pos rfl
    | plain hquote hslash _ ih =>
      rw [List.cons_append, skipQuotes.eq_def]
      exact (if_neg hquote).trans ((if_neg hslash).trans ih)
    | escape _ ih =>
      rw [List.cons_append, List.cons_append, skipQuotes.eq_def]
      exact (if_neg (by decide)).trans ((if_pos rfl).trans ih)

/-- Characters that neither quote nor escape can be taken off the front. -/
theorem Balanced.strip (hbody : Balanced body) (ht : ∀ c ∈ t, c ≠ chr '"' ∧ c ≠ chr '\\')
    (h : body ++ chr '"' :: rest = t ++ s) :
    ∃ body', body = t ++ body' ∧ s = body' ++ chr '"' :: rest ∧ Balanced body' := by
  induction t generalizing body with
  | nil => exact ⟨body, rfl, h.symm, hbody⟩
  | cons c t ih =>
    rw [List.forall_mem_cons] at ht
    cases hbody with
    | nil => exact absurd (List.cons.inj h).1.symm ht.1.1
    | plain _ _ hbody =>
      obtain ⟨rfl, hrest⟩ := List.cons.inj h
      obtain ⟨body', rfl, hs, hbody'⟩ := ih hbody ht.2 hrest
      exact ⟨body', rfl, hs, hbody'⟩
    | escape => exact absurd (List.cons.inj h).1.symm ht.1.2

/-- Hexadecimal digits neither quote nor escape. -/
theorem Hex4.plain {n : Nat} (h : Hex4 t n) : ∀ c ∈ t, c ≠ chr '"' ∧ c ≠ chr '\\' := by
  intro c hc
  have hdigit := (numeralIn_eq_some.mp h.2).2.1 c hc
  constructor
  · rintro rfl
    exact absurd hdigit (by decide)
  · rintro rfl
    exact absurd hdigit (by decide)

/-- An escape at the front of a balanced text. -/
theorem Balanced.escape_inv {e : UInt8} (hbody : Balanced body)
    (h : body ++ chr '"' :: rest = chr '\\' :: e :: s) :
    ∃ body', body = chr '\\' :: e :: body' ∧ s = body' ++ chr '"' :: rest ∧ Balanced body' := by
  cases hbody with
  | nil => exact absurd (List.cons.inj h).1 (by decide)
  | plain _ hslash => exact absurd (List.cons.inj h).1 hslash
  | escape hbody =>
    obtain ⟨-, htail⟩ := List.cons.inj h
    obtain ⟨rfl, hrest⟩ := List.cons.inj htail
    exact ⟨_, rfl, hrest.symm, hbody⟩

/-- No character reaches over the closing quote. -/
theorem Balanced.charText {bytes : Text} (hbody : Balanced body) (ht : CharText t bytes)
    (h : body ++ chr '"' :: rest = t ++ s) :
    ∃ body', body = t ++ body' ∧ s = body' ++ chr '"' :: rest ∧ Balanced body' := by
  cases ht with
  | plain _ hquote hslash =>
    exact hbody.strip (by simp [hquote, hslash]) h
  | short => exact hbody.escape_inv h
  | unicode hescape =>
    cases hescape with
    | basic hhex =>
      obtain ⟨body₁, rfl, h₁, hbody₁⟩ := hbody.escape_inv h
      obtain ⟨body₂, rfl, h₂, hbody₂⟩ := hbody₁.strip hhex.plain h₁.symm
      exact ⟨body₂, rfl, h₂, hbody₂⟩
    | pair _ hhi hlo =>
      obtain ⟨body₁, rfl, h₁, hbody₁⟩ := hbody.escape_inv h
      rw [List.append_eq, List.append_assoc] at h₁
      obtain ⟨body₂, rfl, h₂, hbody₂⟩ := hbody₁.strip hhi.plain h₁.symm
      obtain ⟨body₃, rfl, h₃, hbody₃⟩ := hbody₂.escape_inv h₂.symm
      obtain ⟨body₄, rfl, h₄, hbody₄⟩ := hbody₃.strip hlo.plain h₃.symm
      exact ⟨body₄, by simp, h₄, hbody₄⟩

theorem Balanced.append_plain (ht : ∀ c ∈ t, c ≠ chr '"' ∧ c ≠ chr '\\') (h : Balanced body) :
    Balanced (t ++ body) := by
  induction t with
  | nil => exact h
  | cons c t ih =>
    rw [List.forall_mem_cons] at ht
    exact .plain ht.1.1 ht.1.2 (ih ht.2)

/-- A character in front of a balanced text. -/
theorem CharText.balanced_append {bytes : Text} (ht : CharText t bytes) (h : Balanced body) :
    Balanced (t ++ body) := by
  cases ht with
  | plain _ hquote hslash => exact .plain hquote hslash h
  | short => exact .escape h
  | unicode hescape =>
    cases hescape with
    | basic hhex => exact .escape (h.append_plain hhex.plain)
    | pair _ hhi hlo =>
      simp only [List.cons_append, List.append_assoc]
      exact .escape (.append_plain hhi.plain (.escape (h.append_plain hlo.plain)))

theorem Escaped.balanced {out : Text} (h : Escaped body out) : Balanced body := by
  induction h with
  | nil => exact .nil
  | cons ht _ ih => exact ht.balanced_append ih

end Balanced

section Quoted

variable {body out k s rest : Text}

/-- The empty text stands for the empty string only. -/
theorem escaped_nil_iff : Escaped [] out ↔ out = [] := by
  constructor
  · intro h
    generalize hbody : ([] : Text) = body at h
    cases h with
    | nil => rfl
    | cons ht _ => exact absurd (List.append_eq_nil_iff.mp hbody.symm).1 ht.ne_nil
  · rintro rfl
    exact .nil

/-- In front of the closing quote a round reads one character of the string. -/
theorem processChar_balanced {bytes left : Text} (hbody : Balanced body) (hne : body ≠ []) :
    processChar (body ++ chr '"' :: rest) = some (bytes, left) ↔
      ∃ t body', body = t ++ body' ∧ left = body' ++ chr '"' :: rest ∧ Balanced body' ∧
        CharText t bytes := by
  have hhead : (body ++ chr '"' :: rest).head? ≠ some (chr '"') := by
    cases hbody with
    | nil => exact absurd rfl hne
    | plain hquote => exact fun h => hquote (Option.some_inj.mp h)
    | escape => exact fun h => absurd (Option.some_inj.mp h) (by decide)
  rw [processChar_eq_some hhead]
  constructor
  · rintro ⟨t, hsplit, ht⟩
    obtain ⟨body', rfl, hleft, hbody'⟩ := hbody.charText ht hsplit
    exact ⟨t, body', rfl, hleft, hbody', ht⟩
  · rintro ⟨t, body', rfl, rfl, -, ht⟩
    exact ⟨t, by rw [List.append_assoc], ht⟩

/-- Up to the closing quote `process_string` decodes what follows the grammar, and nothing else. -/
theorem processLoop_eq_some {input : Text} (hbody : Balanced body)
    (hsuffix : body ++ chr '"' :: rest <:+ input) :
    processLoop input (input.length - rest.length - 1) (body ++ chr '"' :: rest) = some out ↔
      Escaped body out := by
  induction hlen : body.length using Nat.strong_induction_on generalizing body out with
  | _ n ih =>
    subst hlen
    have hle := hsuffix.length_le
    rw [List.length_append, List.length_cons] at hle
    rw [processLoop]
    by_cases hnil : body = []
    · subst hnil
      rw [if_neg, Option.some_inj, escaped_nil_iff]
      · exact eq_comm
      · rintro ⟨-, hlt⟩
        simp only [List.nil_append, List.length_cons] at hlt
        omega
    · have hpos : 0 < body.length := List.length_pos_iff.mpr hnil
      rw [if_pos ⟨by simp, by simp only [List.length_append, List.length_cons]; omega⟩]
      have hnext : ∀ {t body' : Text}, body = t ++ body' → t ≠ [] →
          body' ++ chr '"' :: rest <:+ input ∧ body'.length < body.length := by
        rintro t body' rfl ht
        refine ⟨.trans ⟨t, by rw [List.append_assoc]⟩ hsuffix, ?_⟩
        have := List.length_pos_iff.mpr ht
        rw [List.length_append]
        omega
      constructor
      · intro h
        split at h
        · cases h
        · next bytes left hrun =>
          obtain ⟨t, body', hsplit, rfl, hbody', ht⟩ := (processChar_balanced hbody hnil).mp hrun
          obtain ⟨out', hout', rfl⟩ := Option.map_eq_some_iff.mp h
          obtain ⟨hsuf, hlt⟩ := hnext hsplit ht.ne_nil
          rw [hsplit]
          exact .cons ht ((ih _ hlt hbody' hsuf rfl).mp hout')
      · intro h
        cases h with
        | nil => exact absurd rfl hnil
        | @cons t bytes body' out' ht hescaped =>
          obtain ⟨hsuf, hlt⟩ := hnext rfl ht.ne_nil
          have hrun : processChar (t ++ body' ++ chr '"' :: rest) =
              some (bytes, body' ++ chr '"' :: rest) :=
            (processChar_balanced hbody hnil).mpr ⟨t, body', rfl, rfl, hescaped.balanced, ht⟩
          split
          · next hnone => rw [hrun] at hnone; cases hnone
          · next bytes₁ left₁ hsome =>
            rw [hrun] at hsome
            cases hsome
            rw [(ih _ hlt hescaped.balanced hsuf rfl).mpr hescaped, Option.map_some]

/-- Between the quotes `process_string` decodes what follows the grammar. -/
theorem processString_eq_some (hbody : Balanced body) :
    processString (body ++ chr '"' :: rest)
      ((chr '"' :: (body ++ chr '"' :: rest)).length - rest.length - 2) = some out ↔
      Escaped body out := by
  rw [List.length_cons, show ∀ n, n + 1 - rest.length - 2 = n - rest.length - 1 by omega]
  exact processLoop_eq_some hbody List.suffix_rfl

/-- `get_quoted_string` reads quoted strings, and nothing else. -/
theorem getQuotedString_eq_some :
    getQuotedString s = some (k, rest) ↔ ∃ q, s = q ++ rest ∧ Quoted k q := by
  unfold getQuotedString
  constructor
  · intro h
    split at h
    · next hhead =>
      obtain ⟨s, rfl⟩ := List.head?_eq_some_iff.mp hhead
      rw [List.tail_cons] at h
      cases hskip : skipQuotes s with
      | none => simp only [hskip] at h; cases h
      | some rest' =>
        simp only [hskip] at h
        obtain ⟨out, hout, heq⟩ := Option.map_eq_some_iff.mp h
        obtain ⟨rfl, rfl⟩ := Prod.mk.inj heq
        obtain ⟨body, rfl, hbody⟩ := skipQuotes_eq_some.mp hskip
        exact ⟨chr '"' :: (body ++ [chr '"']), by simp, body, out,
          (processString_eq_some hbody).mp hout, rfl, rfl⟩
    · cases h
  · rintro ⟨q, rfl, body, out, hescaped, rfl, rfl⟩
    have htext : chr '"' :: (body ++ [chr '"']) ++ rest = chr '"' :: (body ++ chr '"' :: rest) := by
      simp
    have hskip : skipQuotes (body ++ chr '"' :: rest) = some rest :=
      skipQuotes_eq_some.mpr ⟨body, rfl, hescaped.balanced⟩
    have hout : processString (body ++ chr '"' :: rest)
        ((chr '"' :: (body ++ chr '"' :: rest)).length - rest.length - 2) = some out :=
      (processString_eq_some hescaped.balanced).mpr hescaped
    simp only [htext, List.head?_cons, if_true, List.tail_cons, hskip, hout, Option.map_some]

end Quoted

end Zigbee
