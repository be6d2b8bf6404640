-- SUMMARY: C strings as byte lists without their terminator, and the <string.h> searches used on them.
import Mathlib.Data.List.DropRight
import Mathlib.Data.List.Infix
import Mathlib.Data.List.TakeWhile
import ZigbeeService.Lib.Fault

/-!
# C strings

A string is the list of its bytes up to the terminating NUL. A pointer into it is the suffix that
starts there, so the difference of two pointers is a difference of lengths.
-/

namespace CLib

/-- The bytes of a C string before its terminating NUL. -/
abbrev Text := List UInt8

/-- A character constant. -/
def chr (c : Char) : UInt8 := c.toUInt8

/-- A string literal. -/
def lit (s : String) : Text := s.toList.map chr

/-- A property of bytes is decided by their numbers. -/
theorem forall_byte {p : UInt8 → Prop} (h : ∀ n < 256, p (UInt8.ofNat n)) (c : UInt8) : p c := by
  have hc := h c.toNat c.toNat_lt
  rwa [UInt8.ofNat_toNat] at hc

section Search

variable {α : Type*} [DecidableEq α]

/-- `strstr`: the suffix of `hay` at which `needle` first occurs. -/
def strstr (needle : List α) : List α → Option (List α)
  | [] => if needle = [] then some [] else none
  | c :: cs => if needle <+: c :: cs then some (c :: cs) else strstr needle cs

omit [DecidableEq α] in
/-- Two texts that end at their first separator can only start alike when they are equal. -/
theorem append_sep_prefix_iff {sep : α} {v w : List α} (rest : List α) (hv : sep ∉ v)
    (hw : sep ∉ w) :
    v ++ [sep] <+: w ++ sep :: rest ↔ v = w := by
  constructor
  · intro h
    induction v generalizing w with
    | nil =>
      cases w with
      | nil => rfl
      | cons d w => simp_all
    | cons c v ih =>
      cases w with
      | nil => simp_all
      | cons d w =>
        simp only [List.cons_append, List.cons_prefix_cons] at h
        simp only [List.mem_cons, not_or] at hv hw
        rw [h.1, ih hv.2 hw.2 h.2]
  · rintro rfl
    exact ⟨rest, by simp⟩

omit [DecidableEq α] in
/-- A text is cut at its first separator in one way only. -/
theorem append_sep_inj {sep : α} {v w r r' : List α} (hv : sep ∉ v) (hw : sep ∉ w)
    (h : v ++ sep :: r = w ++ sep :: r') : v = w ∧ r = r' := by
  have hsame : v = w := (append_sep_prefix_iff r' hv hw).mp ⟨r, by simp [← h]⟩
  subst hsame
  exact ⟨rfl, List.tail_eq_of_cons_eq (List.append_cancel_left h)⟩

/-- Searching for a word and the separator after it: a field that ends with the word holds the
first occurrence, any other field is skipped with its separator. -/
theorem strstr_field {sep : α} {v field rest : List α} (hv : sep ∉ v) (hf : sep ∉ field) :
    strstr (v ++ [sep]) (field ++ sep :: rest) =
      if v <:+ field then some (v ++ sep :: rest) else strstr (v ++ [sep]) rest := by
  induction field with
  | nil =>
    cases v with
    | nil => simp [strstr]
    | cons c v =>
      have hne : c ≠ sep := fun h => hv (h ▸ List.mem_cons_self)
      simp [strstr, hne]
  | cons d field ih =>
    have hpre := append_sep_prefix_iff rest hv hf
    simp only [List.mem_cons, not_or] at hf
    simp only [List.cons_append] at hpre ⊢
    rw [strstr, ih hf.2]
    by_cases heq : v = d :: field
    · have hsuf : v <:+ d :: field := heq ▸ List.suffix_rfl
      rw [if_pos (hpre.mpr heq), if_pos hsuf, heq]
      rfl
    · rw [if_neg (fun h => heq (hpre.mp h))]
      simp [List.suffix_cons_iff, heq]

/-- Searching for the separator alone stops at the end of the first field. -/
theorem strstr_sep {sep : α} {field rest : List α} (hf : sep ∉ field) :
    strstr [sep] (field ++ sep :: rest) = some (sep :: rest) := by
  have h : strstr ([] ++ [sep]) (field ++ sep :: rest) = _ := strstr_field List.not_mem_nil hf
  simpa using h

/-- A text without the separator has no occurrence of a needle that ends with it. -/
theorem strstr_eq_none {sep : α} {v s : List α} (hs : sep ∉ s) :
    strstr (v ++ [sep]) s = none := by
  induction s with
  | nil => simp [strstr]
  | cons c s ih =>
    have hnot : ¬ v ++ [sep] <+: c :: s := fun h => hs (h.subset (by simp))
    rw [strstr, if_neg hnot]
    exact ih (fun h => hs (List.mem_cons_of_mem _ h))

/-- A search result is a suffix of the searched text. -/
theorem strstr_suffix {needle s t : List α} (h : strstr needle s = some t) : t <:+ s := by
  induction s with
  | nil =>
    simp only [strstr] at h
    split at h <;> simp_all
  | cons c s ih =>
    rw [strstr] at h
    split at h
    · cases h; exact List.suffix_rfl
    · exact (ih h).trans (List.suffix_cons c s)

end Search

/-- `strndup (s, n)` with `n` converted to `size_t`: a negative `n` becomes a huge bound, and the
whole string is copied. -/
def strndup (s : Text) (n : Int) : Text := if n < 0 then s else s.take n.toNat

@[simp] theorem strndup_natCast (s : Text) (n : Nat) : strndup s n = s.take n := by
  have hn : ¬ (n : Int) < 0 := by omega
  rw [strndup, if_neg hn, Int.toNat_natCast]

/-- The last text of a sequence that is joined with separators. -/
theorem intercalate_concat {α : Type*} (sep : List α) {texts : List (List α)} (h : texts ≠ [])
    (text : List α) :
    sep.intercalate (texts ++ [text]) = sep.intercalate texts ++ (sep ++ text) := by
  induction texts with
  | nil => exact absurd rfl h
  | cons t texts ih =>
    cases texts with
    | nil => simp [List.intercalate_cons_cons]
    | cons u texts =>
      have hrest : sep.intercalate (u :: texts ++ [text]) =
          sep.intercalate (u :: texts) ++ (sep ++ text) := ih (List.cons_ne_nil u texts)
      rw [List.cons_append, List.cons_append, List.intercalate_cons_cons,
        List.intercalate_cons_cons, ← List.cons_append, hrest]
      simp only [List.append_assoc]

/-- `strchr`: the text from the first occurrence of a character on. -/
def strchr (s : Text) (c : UInt8) : Option Text := strstr [c] s

/-- The string in a buffer: its bytes up to the first NUL. -/
def cstring (buffer : List UInt8) : Text := buffer.takeWhile (· ≠ 0)

theorem cstring_nul (buffer : List UInt8) : cstring (0 :: buffer) = [] :=
  List.takeWhile_cons_of_neg (by simp)

theorem cstring_cons {c : UInt8} (hc : c ≠ 0) (buffer : List UInt8) :
    cstring (c :: buffer) = c :: cstring buffer :=
  List.takeWhile_cons_of_pos (by simpa using hc)

theorem nul_notMem_cstring (buffer : List UInt8) : 0 ∉ cstring buffer := fun hmem => by
  simpa using List.mem_takeWhile_imp hmem

theorem cstring_eq {s : Text} (h : 0 ∉ s) : cstring s = s :=
  List.takeWhile_eq_self_iff.mpr fun c hc => by
    have hne : c ≠ 0 := fun heq => h (heq ▸ hc)
    simpa using hne

/-- What is left out at the end may be longer. -/
theorem rdropWhile_append_of_pos {α : Type*} {p : α → Bool} {s t : List α} (h : ∀ c ∈ t, p c) :
    (s ++ t).rdropWhile p = s.rdropWhile p := by
  have hreverse : ∀ c ∈ t.reverse, p c := fun c hc => h c (List.mem_reverse.mp hc)
  rw [List.rdropWhile, List.rdropWhile, List.reverse_append, List.dropWhile_append_of_pos hreverse]

/-! ## Pieces between separators -/

/-- The tokens that calls of `strtok_r` return one after the other: what stands between the
delimiters, without the empty pieces. -/
def strtokAll (delim : UInt8) (s : Text) : List Text := (s.splitOn delim).filter (· ≠ [])

section Split

variable {α : Type*} [BEq α] [LawfulBEq α] {sep : α} {s piece : List α}

/-- No piece of a split holds the separator. -/
theorem notMem_of_mem_splitOn (h : piece ∈ s.splitOn sep) : sep ∉ piece := by
  induction s generalizing piece with
  | nil =>
    rw [List.splitOn_nil, List.mem_singleton] at h
    simp [h]
  | cons c s ih =>
    rw [List.splitOn_cons_eq_if_modifyHead] at h
    split at h
    · rcases List.mem_cons.mp h with rfl | h
      · simp
      · exact ih h
    · next hc =>
      obtain ⟨p, ps, hps⟩ := List.exists_cons_of_ne_nil (List.splitOn_ne_nil sep s)
      rw [hps, List.modifyHead_cons, List.mem_cons] at h
      rw [hps, List.forall_mem_cons] at ih
      rcases h with rfl | h
      · rw [List.mem_cons, not_or]
        exact ⟨fun heq => hc (by simp [heq]), ih.1⟩
      · exact ih.2 piece h

omit [LawfulBEq α] in
/-- A text has one piece more than it has separators. -/
theorem length_splitOn (s : List α) : (s.splitOn sep).length = s.count sep + 1 := by
  induction s with
  | nil => rfl
  | cons c s ih =>
    rw [List.splitOn_cons_eq_if_modifyHead, List.count_cons]
    split
    · rw [List.length_cons, ih]
    · rw [List.length_modifyHead, ih, Nat.add_zero]

omit [BEq α] [LawfulBEq α] in
/-- Joining with separators adds nothing else. -/
theorem exists_ne_mem_intercalate {texts : List (List α)} :
    (∃ c ∈ [sep].intercalate texts, c ≠ sep) ↔ ∃ t ∈ texts, ∃ c ∈ t, c ≠ sep := by
  induction texts with
  | nil => simp
  | cons t texts ih =>
    cases texts with
    | nil => simp
    | cons u texts =>
      simp only [List.intercalate_cons_cons, List.mem_append, List.mem_singleton, or_and_right,
        exists_or, exists_eq_left, ne_self_iff_false, or_false]
      rw [List.exists_mem_cons_iff, ← ih]

end Split

/-- There are tokens unless all characters are delimiters. -/
theorem strtokAll_ne_nil {delim : UInt8} {s : Text} :
    strtokAll delim s ≠ [] ↔ ∃ c ∈ s, c ≠ delim := by
  have hpiece : ∀ p ∈ s.splitOn delim, (∃ c ∈ p, c ≠ delim) ↔ p ≠ [] := by
    intro p hp
    have hdelim := notMem_of_mem_splitOn hp
    cases p with
    | nil => simp
    | cons c p =>
      rw [List.mem_cons, not_or] at hdelim
      exact ⟨fun _ => List.cons_ne_nil c p, fun _ => ⟨c, List.mem_cons_self, Ne.symm hdelim.1⟩⟩
  have hany : (∃ c ∈ s, c ≠ delim) ↔ ∃ p ∈ s.splitOn delim, p ≠ [] := by
    have hjoin : (∃ c ∈ [delim].intercalate (s.splitOn delim), c ≠ delim) ↔ _ :=
      exists_ne_mem_intercalate
    rw [List.intercalate_splitOn] at hjoin
    rw [hjoin]
    exact exists_congr fun p => and_congr_right fun hp => hpiece p hp
  rw [hany, strtokAll, ne_eq, List.filter_eq_nil_iff]
  simp

theorem length_strtokAll_le (delim : UInt8) (s : Text) :
    (strtokAll delim s).length ≤ s.count delim + 1 := by
  rw [← length_splitOn]
  exact List.length_filter_le _ _

theorem length_le_intercalate {α : Type*} (sep text : List α) (texts : List (List α)) :
    text.length ≤ (sep.intercalate (text :: texts)).length := by
  cases texts with
  | nil => simp
  | cons t texts => simp [List.intercalate_cons_cons]

/-- Two texts joined first are joined with the others alike. -/
theorem intercalate_append {α : Type*} (sep text t : List α) (texts : List (List α)) :
    sep.intercalate ((text ++ sep ++ t) :: texts) = sep.intercalate (text :: t :: texts) := by
  cases texts with
  | nil => simp [List.intercalate_cons_cons]
  | cons u texts => simp [List.intercalate_cons_cons]

/-! ## Composing text in a buffer -/

/-- `sprintf` of a text into a buffer of `cap` bytes. -/
def sprintf (cap : Nat) (text : Text) : Checked Text :=
  if text.length < cap then .ok text else .error .outOfBounds

/-- `strcat` onto the text `dst` in a buffer of `cap` bytes. -/
def strcat (cap : Nat) (dst src : Text) : Checked Text := sprintf cap (dst ++ src)

theorem sprintf_eq_ok {cap : Nat} {text t : Text} :
    sprintf cap text = .ok t ↔ t = text ∧ text.length < cap := by
  unfold sprintf
  split
  · next hfit => simp [hfit, eq_comm]
  · next hfit => simp [hfit]

theorem strcat_eq_ok {cap : Nat} {dst src t : Text} :
    strcat cap dst src = .ok t ↔ t = dst ++ src ∧ dst.length + src.length < cap := by
  rw [strcat, sprintf_eq_ok, List.length_append]

/-- A loop that puts a separator and a text behind what is in the buffer. -/
theorem foldlM_strcat_eq_ok {cap : Nat} {sep text₀ text : Text} {texts : List Text}
    (h : text₀.length < cap) :
    texts.foldlM (fun dst src => do
        let dst ← strcat cap dst sep
        strcat cap dst src) text₀ = .ok text ↔
      text = sep.intercalate (text₀ :: texts) ∧ text.length < cap := by
  induction texts generalizing text₀ with
  | nil =>
    simp only [List.foldlM_nil, Checked.pure_eq, Except.ok.injEq, List.intercalate_singleton]
    constructor
    · rintro rfl
      exact ⟨rfl, h⟩
    · rintro ⟨rfl, -⟩
      rfl
  | cons t texts ih =>
    simp only [List.foldlM_cons, Checked.bind_eq_ok, strcat_eq_ok]
    constructor
    · rintro ⟨text₂, ⟨text₁, ⟨rfl, -⟩, rfl, hlen⟩, hrest⟩
      rw [← List.length_append] at hlen
      rwa [ih hlen, intercalate_append] at hrest
    · rintro ⟨htext, hlen⟩
      rw [← intercalate_append] at htext
      have hle := length_le_intercalate sep (text₀ ++ sep ++ t) texts
      rw [← htext] at hle
      have hroom : (text₀ ++ sep ++ t).length < cap := Nat.lt_of_le_of_lt hle hlen
      refine ⟨_, ⟨_, ⟨rfl, ?_⟩, rfl, ?_⟩, (ih hroom).mpr ⟨htext, hlen⟩⟩
      · rw [List.length_append, List.length_append] at hroom
        omega
      · rwa [List.length_append] at hroom

end CLib
