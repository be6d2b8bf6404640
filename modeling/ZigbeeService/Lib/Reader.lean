-- SUMMARY: Readers that take something off the front of a text, and the loop over items in brackets.
import ZigbeeService.Lib.Number

/-!
# Readers

A reader takes something off the front of a text. Its cursor never moves backwards, so a loop that
reads item after item ends with the text. A reader is specified by the texts it takes: in front of a
delimiter it reads exactly those.
-/

namespace CLib

-- ---------------------------------------------------------------------------
-- White space
-- ---------------------------------------------------------------------------

/-- Nothing but white space. -/
def Spaces (ws : Text) : Prop := ∀ c ∈ ws, isspace c = true

/-- The text from its first character that is not white space on. -/
def skipWhitespaces (s : Text) : Text := s.dropWhile isspace

/-- A text that starts with something else than white space. -/
def Solid (s : Text) : Prop := ∃ c cs, s = c :: cs ∧ isspace c = false

theorem Solid.append {s : Text} (h : Solid s) (t : Text) : Solid (s ++ t) := by
  obtain ⟨c, cs, rfl, hc⟩ := h
  exact ⟨c, cs ++ t, rfl, hc⟩

theorem Solid.ne_nil {s : Text} (h : Solid s) : s ≠ [] := by
  obtain ⟨c, cs, rfl, -⟩ := h
  exact List.cons_ne_nil c cs

theorem Solid.skipWhitespaces {s : Text} (h : Solid s) : skipWhitespaces s = s := by
  obtain ⟨c, cs, rfl, hc⟩ := h
  exact List.dropWhile_cons_of_neg (by simp [hc])

theorem spaces_nil : Spaces [] := List.forall_mem_nil _

theorem skipWhitespaces_append {ws : Text} (h : Spaces ws) (s : Text) :
    skipWhitespaces (ws ++ s) = skipWhitespaces s :=
  List.dropWhile_append_of_pos h

theorem skipWhitespaces_spaces_append {ws s : Text} (h : Spaces ws) (hs : Solid s) :
    skipWhitespaces (ws ++ s) = s := by
  rw [skipWhitespaces_append h, hs.skipWhitespaces]

/-- What is skipped is white space, and nothing of it is left. -/
theorem skipWhitespaces_split (s : Text) :
    ∃ ws, Spaces ws ∧ s = ws ++ skipWhitespaces s ∧
      (skipWhitespaces s = [] ∨ Solid (skipWhitespaces s)) := by
  refine ⟨s.takeWhile isspace, fun c hc => List.mem_takeWhile_imp hc,
    List.takeWhile_append_dropWhile.symm, ?_⟩
  cases h : skipWhitespaces s with
  | nil => exact .inl rfl
  | cons c cs =>
    refine .inr ⟨c, cs, rfl, ?_⟩
    have hhead := List.head?_dropWhile_not isspace s
    rw [show s.dropWhile isspace = c :: cs from h] at hhead
    simpa using hhead

theorem skipWhitespaces_suffix (s : Text) : skipWhitespaces s <:+ s := List.dropWhile_suffix _

theorem skipWhitespaces_skipWhitespaces (s : Text) :
    skipWhitespaces (skipWhitespaces s) = skipWhitespaces s := by
  obtain ⟨-, -, -, h | h⟩ := skipWhitespaces_split s
  · rw [h]
    rfl
  · exact h.skipWhitespaces

-- ---------------------------------------------------------------------------
-- Readers
-- ---------------------------------------------------------------------------

/-- A function that reads off the front of a text and leaves the rest of that text. -/
structure Reader (α : Type) where
  run : Text → Option (α × Text)
  suffix : ∀ {s : Text} {a : α} {rest : Text}, run s = some (a, rest) → rest <:+ s

/-- Reads with another result. -/
def Reader.map {α β : Type} (f : α → β) (r : Reader α) : Reader β where
  run s := (r.run s).map fun p => (f p.1, p.2)
  suffix h := by
    obtain ⟨p, hp, heq⟩ := Option.map_eq_some_iff.mp h
    cases heq
    exact r.suffix hp

theorem Reader.map_run_eq_some {α β : Type} {f : α → β} {r : Reader α} {s rest : Text} {b : β} :
    (r.map f).run s = some (b, rest) ↔ ∃ a, r.run s = some (a, rest) ∧ b = f a := by
  constructor
  · intro h
    obtain ⟨⟨a, rest'⟩, ha, heq⟩ := Option.map_eq_some_iff.mp h
    cases heq
    exact ⟨a, ha, rfl⟩
  · rintro ⟨a, ha, rfl⟩
    exact Option.map_eq_some_iff.mpr ⟨(a, rest), ha, rfl⟩

/-- The text is at its end, or at a character that stands behind a value. -/
def Delimits (rest : Text) : Prop :=
  ∀ c cs, rest = c :: cs → isspace c = true ∨ c = chr ',' ∨ c = chr ']' ∨ c = chr '}'

theorem delimits_nil : Delimits [] := nofun

theorem delimits_cons {c : UInt8} (h : isspace c = true ∨ c = chr ',' ∨ c = chr ']' ∨ c = chr '}')
    (cs : Text) : Delimits (c :: cs) := by
  rintro d ds ⟨⟩
  exact h

theorem Delimits.spaces_append {ws rest : Text} (hws : Spaces ws) (h : Delimits rest) :
    Delimits (ws ++ rest) := by
  cases ws with
  | nil => exact h
  | cons c ws => exact delimits_cons (.inl (hws c List.mem_cons_self)) (ws ++ rest)

/-- In front of a delimiter the reader reads exactly the texts `R` gives. -/
def Reader.Reads {α : Type} (item : Reader α) (R : α → Text → Prop) : Prop :=
  ∀ s a rest, Solid s → Delimits rest →
    (item.run s = some (a, rest) ↔ ∃ t, s = t ++ rest ∧ R a t)

-- ---------------------------------------------------------------------------
-- Items separated by commas
-- ---------------------------------------------------------------------------

section Items

variable {α β : Type} (item : Reader α) (add : β → α → Option β)

/-- Reads items while a comma follows, and collects them. -/
def readItems (acc : β) (s : Text) : Option (β × Text) :=
  match s with
  | [] => some (acc, [])
  | c :: cs =>
    match _hitem : item.run (c :: cs) with
    | none => none
    | some (a, rest) =>
      match add acc a with
      | none => none
      | some acc =>
        match _hrest : skipWhitespaces rest with
        | [] => some (acc, [])
        | d :: ds =>
          if d = chr ',' then readItems acc (skipWhitespaces ds) else some (acc, d :: ds)
  termination_by s.length
  decreasing_by
    have hds : (skipWhitespaces ds).length ≤ ds.length := (skipWhitespaces_suffix ds).length_le
    have hrest := (skipWhitespaces_suffix rest).length_le
    have hitem := (item.suffix _hitem).length_le
    rw [_hrest, List.length_cons] at hrest
    omega

theorem readItems_nil (acc : β) : readItems item add acc [] = some (acc, []) := by
  rw [readItems]

/-- One round of the loop. -/
theorem readItems_of_ne_nil (acc : β) {s : Text} (hs : s ≠ []) :
    readItems item add acc s =
      (item.run s).bind fun p => (add acc p.1).bind fun acc =>
        if (skipWhitespaces p.2).head? = some (chr ',') then
          readItems item add acc (skipWhitespaces (skipWhitespaces p.2).tail)
        else some (acc, skipWhitespaces p.2) := by
  obtain ⟨c, cs, rfl⟩ := List.exists_cons_of_ne_nil hs
  rw [readItems]
  split
  · next hitem => rw [hitem]; rfl
  · next a rest hitem =>
    rw [hitem, Option.bind_some]
    split
    · next hadd => rw [hadd]; rfl
    · next acc' hadd =>
      rw [hadd, Option.bind_some]
      split
      · next hrest => simp [hrest]
      · next d ds hrest => simp [hrest]

theorem readItems_suffix {acc b : β} {s rest : Text}
    (h : readItems item add acc s = some (b, rest)) : rest <:+ s := by
  induction hlen : s.length using Nat.strong_induction_on generalizing acc s with
  | _ n ih =>
    subst hlen
    by_cases hs : s = []
    · subst hs
      rw [readItems_nil] at h
      cases h
      exact List.suffix_rfl
    · rw [readItems_of_ne_nil item add acc hs] at h
      obtain ⟨⟨a, r⟩, hitem, h⟩ := Option.bind_eq_some_iff.mp h
      obtain ⟨acc', -, h⟩ := Option.bind_eq_some_iff.mp h
      have hskip := (skipWhitespaces_suffix r).trans (item.suffix hitem)
      dsimp only at h
      split at h
      · next hcomma =>
        obtain ⟨ds, hds⟩ := List.head?_eq_some_iff.mp hcomma
        rw [hds, List.tail_cons] at h
        rw [hds] at hskip
        have hsuffix := (skipWhitespaces_suffix ds).trans ((List.suffix_cons _ ds).trans hskip)
        have hlt : (skipWhitespaces ds).length < s.length := by
          have h₁ := hskip.length_le
          have h₂ := (skipWhitespaces_suffix ds).length_le
          rw [List.length_cons] at h₁
          omega
        exact (ih _ hlt h rfl).trans hsuffix
      · cases h
        exact hskip

/-- The loop leaves no white space in front of the cursor. -/
theorem skipWhitespaces_of_readItems {acc b : β} {s rest : Text}
    (h : readItems item add acc s = some (b, rest)) : skipWhitespaces rest = rest := by
  induction hlen : s.length using Nat.strong_induction_on generalizing acc s with
  | _ n ih =>
    subst hlen
    by_cases hs : s = []
    · subst hs
      rw [readItems_nil] at h
      cases h
      rfl
    · rw [readItems_of_ne_nil item add acc hs] at h
      obtain ⟨⟨a, r⟩, hitem, hround⟩ := Option.bind_eq_some_iff.mp h
      obtain ⟨acc', -, hend⟩ := Option.bind_eq_some_iff.mp hround
      have hskip := ((skipWhitespaces_suffix r).trans (item.suffix hitem)).length_le
      dsimp only at hend
      split at hend
      · next hcomma =>
        obtain ⟨ds, hds⟩ := List.head?_eq_some_iff.mp hcomma
        rw [hds, List.tail_cons] at hend
        rw [hds, List.length_cons] at hskip
        have hle := (skipWhitespaces_suffix ds).length_le
        exact ih _ (by omega) hend rfl
      · cases hend
        exact skipWhitespaces_skipWhitespaces r

/-- Items with commas between them, and white space around these. -/
inductive Separated (R : α → Text → Prop) : List α → Text → Prop where
  | last {a : α} {t ws : Text} : R a t → Spaces ws → Separated R [a] (t ++ ws)
  | more {a : α} {as : List α} {t ws ws' ts : Text} :
      R a t → Spaces ws → Spaces ws' → Separated R as ts →
      Separated R (a :: as) (t ++ (ws ++ chr ',' :: (ws' ++ ts)))

variable {item add} {R : α → Text → Prop}

/-- There is a first item. -/
theorem Separated.exists_first {as : List α} {ts : Text} (h : Separated R as ts) :
    ∃ a t rest, R a t ∧ ts = t ++ rest := by
  cases h with
  | last ht => exact ⟨_, _, _, ht, rfl⟩
  | more ht => exact ⟨_, _, _, ht, rfl⟩

theorem Separated.exists_text {as : List α} {ts : Text} (h : Separated R as ts) {a : α}
    (ha : a ∈ as) : ∃ t, R a t := by
  induction h with
  | last ht => exact ⟨_, List.mem_singleton.mp ha ▸ ht⟩
  | more ht _ _ _ ih =>
    rcases List.mem_cons.mp ha with rfl | hmem
    · exact ⟨_, ht⟩
    · exact ih hmem

theorem Separated.solid (hR : ∀ {a t}, R a t → Solid t) {as : List α} {ts : Text}
    (h : Separated R as ts) : Solid ts := by
  obtain ⟨a, t, rest, ht, rfl⟩ := h.exists_first
  exact (hR ht).append rest

/-- The loop reads separated items up to the closing bracket. -/
theorem readItems_of_separated (hitem : item.Reads R) (hR : ∀ {a t}, R a t → Solid t)
    {close : UInt8} (hclose : close = chr ']' ∨ close = chr '}') {as : List α} {t : Text}
    (h : Separated R as t) {acc b : β} (hadd : as.foldlM add acc = some b) (rest : Text) :
    readItems item add acc (t ++ close :: rest) = some (b, close :: rest) := by
  have hsolid : Solid (close :: rest) := by
    rcases hclose with rfl | rfl <;> exact ⟨_, _, rfl, by decide⟩
  have hcomma : close ≠ chr ',' := by rcases hclose with rfl | rfl <;> decide
  have hdelim : Delimits (close :: rest) := by
    rcases hclose with rfl | rfl
    · exact delimits_cons (.inr (.inr (.inl rfl))) rest
    · exact delimits_cons (.inr (.inr (.inr rfl))) rest
  induction h generalizing acc with
  | @last a t ws ht hws =>
    have hs : Solid (t ++ (ws ++ close :: rest)) := (hR ht).append _
    have hrun := (hitem _ a _ hs (hdelim.spaces_append hws)).mpr ⟨t, rfl, ht⟩
    rw [List.foldlM_cons] at hadd
    obtain ⟨acc', hacc, hb⟩ := Option.bind_eq_some_iff.mp hadd
    cases hb
    rw [List.append_assoc, readItems_of_ne_nil item add acc hs.ne_nil, hrun, Option.bind_some]
    dsimp only
    rw [hacc, Option.bind_some, skipWhitespaces_spaces_append hws hsolid, List.head?_cons,
      if_neg fun heq => hcomma (Option.some_inj.mp heq)]
  | @more a as t ws ws' ts ht hws hws' hts ih =>
    have hs : Solid (t ++ (ws ++ chr ',' :: (ws' ++ (ts ++ close :: rest)))) := (hR ht).append _
    have hdel : Delimits (ws ++ chr ',' :: (ws' ++ (ts ++ close :: rest))) :=
      (delimits_cons (.inr (.inl rfl)) _).spaces_append hws
    have hrun := (hitem _ a _ hs hdel).mpr ⟨t, rfl, ht⟩
    rw [List.foldlM_cons] at hadd
    obtain ⟨acc', hacc, hadd⟩ := Option.bind_eq_some_iff.mp hadd
    have hsplit : skipWhitespaces (ws ++ chr ',' :: (ws' ++ (ts ++ close :: rest))) =
        chr ',' :: (ws' ++ (ts ++ close :: rest)) :=
      skipWhitespaces_spaces_append hws ⟨_, _, rfl, by decide⟩
    simp only [List.append_assoc, List.cons_append]
    rw [readItems_of_ne_nil item add acc hs.ne_nil, hrun, Option.bind_some]
    dsimp only
    rw [hacc, Option.bind_some, hsplit, List.head?_cons, if_pos rfl, List.tail_cons,
      skipWhitespaces_spaces_append hws' ((hts.solid hR).append _)]
    exact ih hadd

/-- Where the loop stops in front of a closing bracket it has read separated items. -/
theorem separated_of_readItems (hitem : item.Reads R) {close : UInt8}
    (hclose : close = chr ']' ∨ close = chr '}') {acc b : β} {s rest : Text} (hs : Solid s)
    (h : readItems item add acc s = some (b, close :: rest)) :
    ∃ as t, s = t ++ close :: rest ∧ Separated R as t ∧ as.foldlM add acc = some b := by
  have hcomma : close ≠ chr ',' := by rcases hclose with rfl | rfl <;> decide
  have hdelim : Delimits (close :: rest) := by
    rcases hclose with rfl | rfl
    · exact delimits_cons (.inr (.inr (.inl rfl))) rest
    · exact delimits_cons (.inr (.inr (.inr rfl))) rest
  induction hlen : s.length using Nat.strong_induction_on generalizing acc s with
  | _ n ih =>
    subst hlen
    rw [readItems_of_ne_nil item add acc hs.ne_nil] at h
    obtain ⟨⟨a, r⟩, hrun, hround⟩ := Option.bind_eq_some_iff.mp h
    clear h
    obtain ⟨acc', hacc, h⟩ := Option.bind_eq_some_iff.mp hround
    clear hround
    obtain ⟨ws, hws, hr, -⟩ := skipWhitespaces_split r
    dsimp only at h hacc
    split at h
    · next hhead =>
      obtain ⟨ds, hds⟩ := List.head?_eq_some_iff.mp hhead
      rw [hds] at hr
      rw [hds, List.tail_cons] at h
      obtain ⟨ws', hws', hds', hend⟩ := skipWhitespaces_split ds
      have hsolid : Solid (skipWhitespaces ds) := by
        refine hend.resolve_left fun hnil => ?_
        rw [hnil, readItems_nil] at h
        cases h
      have hdel : Delimits r := by
        rw [hr]
        exact (delimits_cons (.inr (.inl rfl)) ds).spaces_append hws
      obtain ⟨t, rfl, ht⟩ := (hitem s a r hs hdel).mp hrun
      have hlt : (skipWhitespaces ds).length < (t ++ r).length := by
        have hle := (skipWhitespaces_suffix ds).length_le
        rw [hr, List.length_append, List.length_append, List.length_cons]
        omega
      obtain ⟨as, ts, hts, hsep, hfold⟩ := ih _ hlt hsolid h rfl
      refine ⟨a :: as, t ++ (ws ++ chr ',' :: (ws' ++ ts)), ?_, .more ht hws hws' hsep, ?_⟩
      · rw [hr, hds', hts]
        simp only [List.append_assoc, List.cons_append]
      · rw [List.foldlM_cons]
        exact Option.bind_eq_some_iff.mpr ⟨acc', hacc, hfold⟩
    · obtain ⟨rfl, hrest⟩ := Prod.mk.inj (Option.some_inj.mp h)
      rw [hrest] at hr
      have hdel : Delimits r := by
        rw [hr]
        exact hdelim.spaces_append hws
      obtain ⟨t, rfl, ht⟩ := (hitem s a r hs hdel).mp hrun
      refine ⟨[a], t ++ ws, by rw [hr, List.append_assoc], .last ht hws, ?_⟩
      rw [List.foldlM_cons, hacc]
      rfl

end Items

-- ---------------------------------------------------------------------------
-- Items in brackets
-- ---------------------------------------------------------------------------

section Brackets

variable {α β : Type} (opening closing : UInt8)

/-- Items in brackets, which may be none. -/
inductive Bracketed (R : α → Text → Prop) : List α → Text → Prop where
  | empty {ws : Text} : Spaces ws → Bracketed R [] (opening :: (ws ++ [closing]))
  | items {as : List α} {ws ts : Text} :
      Spaces ws → Separated R as ts → Bracketed R as (opening :: (ws ++ (ts ++ [closing])))

variable {opening closing} in
/-- Every item has its text between the brackets. -/
theorem Bracketed.exists_text {R : α → Text → Prop} {as : List α} {t : Text}
    (h : Bracketed opening closing R as t) {a : α} (ha : a ∈ as) : ∃ t, R a t := by
  cases h with
  | empty => cases ha
  | items _ hsep => exact hsep.exists_text ha

/-- The cursor behind the closing bracket, if it stands there behind white space. -/
def readClosing (acc : β) (s : Text) : Option (β × Text) :=
  if (skipWhitespaces s).head? = some closing then some (acc, (skipWhitespaces s).tail) else none

variable {closing} in
theorem readClosing_eq_some {acc b : β} {s rest : Text} :
    readClosing closing acc s = some (b, rest) ↔
      b = acc ∧ skipWhitespaces s = closing :: rest := by
  unfold readClosing
  split
  · next hhead =>
    obtain ⟨cs, hcs⟩ := List.head?_eq_some_iff.mp hhead
    simp [hcs, eq_comm]
  · next hhead =>
    refine iff_of_false nofun fun hand => hhead ?_
    rw [hand.2, List.head?_cons]

/-- Reads items in brackets: none at all, or items with commas between them. -/
def readBracketed (item : Reader α) (add : β → α → Option β) (init : β) : Reader β where
  run s :=
    if s.head? = some opening then
      if (skipWhitespaces s.tail).head? = some closing then readClosing closing init s.tail
      else (readItems item add init (skipWhitespaces s.tail)).bind fun p =>
        readClosing closing p.1 p.2
    else none
  suffix := by
    intro s b rest h
    have hclose : ∀ {acc : β} {t : Text}, readClosing closing acc t = some (b, rest) →
        rest <:+ t := fun {acc t} h =>
      (List.suffix_cons closing rest).trans
        ((readClosing_eq_some.mp h).2 ▸ skipWhitespaces_suffix t)
    split at h
    · split at h
      · exact (hclose h).trans (List.tail_suffix s)
      · obtain ⟨⟨acc, r⟩, hitems, hend⟩ := Option.bind_eq_some_iff.mp h
        exact (hclose hend).trans ((readItems_suffix item add hitems).trans
          ((skipWhitespaces_suffix s.tail).trans (List.tail_suffix s)))
    · cases h

variable {opening closing} {item : Reader α} {add : β → α → Option β} {R : α → Text → Prop}

theorem solid_closing (hclose : closing = chr ']' ∨ closing = chr '}') (rest : Text) :
    Solid (closing :: rest) := by
  rcases hclose with rfl | rfl <;> exact ⟨_, _, rfl, by decide⟩

/-- What is read in brackets is items with commas between them, or nothing. -/
theorem bracketed_of_readBracketed (hitem : item.Reads R)
    (hclose : closing = chr ']' ∨ closing = chr '}') {init b : β} {s rest : Text}
    (h : (readBracketed opening closing item add init).run s = some (b, rest)) :
    ∃ as t, s = t ++ rest ∧ Bracketed opening closing R as t ∧ as.foldlM add init = some b := by
  simp only [readBracketed] at h
  split at h
  · next hopen =>
    obtain ⟨cs, rfl⟩ := List.head?_eq_some_iff.mp hopen
    rw [List.tail_cons] at h
    obtain ⟨ws, hws, hcs, hend⟩ := skipWhitespaces_split cs
    split at h
    · obtain ⟨rfl, hskip⟩ := readClosing_eq_some.mp h
      refine ⟨[], opening :: (ws ++ [closing]), ?_, .empty hws, rfl⟩
      rw [hcs, hskip]
      simp
    · next hfull =>
      obtain ⟨⟨acc, r⟩, hitems, hclosing⟩ := Option.bind_eq_some_iff.mp h
      obtain ⟨rfl, hskip⟩ := readClosing_eq_some.mp hclosing
      rw [skipWhitespaces_of_readItems item add hitems] at hskip
      rw [hskip] at hitems
      have hne : skipWhitespaces cs ≠ [] := fun hnil => by
        rw [hnil, readItems_nil] at hitems
        cases hitems
      obtain ⟨as, ts, hts, hsep, hfold⟩ :=
        separated_of_readItems hitem hclose (hend.resolve_left hne) hitems
      refine ⟨as, opening :: (ws ++ (ts ++ [closing])), ?_, .items hws hsep, hfold⟩
      rw [hcs, hts]
      simp
  · cases h

/-- Items in brackets are read, whatever follows them. -/
theorem readBracketed_of_bracketed (hitem : item.Reads R) (hR : ∀ {a t}, R a t → Solid t)
    (hclose : closing = chr ']' ∨ closing = chr '}')
    (hstart : ∀ {a t}, R a t → t.head? ≠ some closing) {init b : β} {as : List α} {t : Text}
    (h : Bracketed opening closing R as t) (hfold : as.foldlM add init = some b) (rest : Text) :
    (readBracketed opening closing item add init).run (t ++ rest) = some (b, rest) := by
  cases h with
  | @empty ws hws =>
    have hskip : skipWhitespaces (ws ++ closing :: rest) = closing :: rest :=
      skipWhitespaces_spaces_append hws (solid_closing hclose rest)
    cases hfold
    simp [readBracketed, readClosing, hskip]
  | @items as ws ts hws hsep =>
    have hts : Solid (ts ++ closing :: rest) := (hsep.solid hR).append _
    have hskip : skipWhitespaces (ws ++ (ts ++ closing :: rest)) = ts ++ closing :: rest :=
      skipWhitespaces_spaces_append hws hts
    have hhead : (ts ++ closing :: rest).head? ≠ some closing := by
      obtain ⟨a, t, u, ht, rfl⟩ := hsep.exists_first
      obtain ⟨c, cs, rfl, -⟩ := hR ht
      have hfirst := hstart ht
      rwa [List.head?_cons] at hfirst
    have hread := readItems_of_separated hitem hR hclose hsep hfold rest
    have hend : skipWhitespaces (closing :: rest) = closing :: rest :=
      (solid_closing hclose rest).skipWhitespaces
    have htext : opening :: (ws ++ (ts ++ [closing])) ++ rest =
        opening :: (ws ++ (ts ++ closing :: rest)) := by simp
    simp only [readBracketed, htext, List.head?_cons, if_true, List.tail_cons, hskip,
      if_neg hhead, hread, Option.bind_some]
    exact readClosing_eq_some.mpr ⟨rfl, hend⟩

/-- Items in brackets are read whatever follows them, and nothing else is. -/
theorem readBracketed_eq_some (hitem : item.Reads R) (hR : ∀ {a t}, R a t → Solid t)
    (hclose : closing = chr ']' ∨ closing = chr '}')
    (hstart : ∀ {a t}, R a t → t.head? ≠ some closing) {init b : β} {s rest : Text} :
    (readBracketed opening closing item add init).run s = some (b, rest) ↔
      ∃ as t, s = t ++ rest ∧ Bracketed opening closing R as t ∧
        as.foldlM add init = some b := by
  refine ⟨bracketed_of_readBracketed hitem hclose, ?_⟩
  rintro ⟨as, t, rfl, hbracketed, hfold⟩
  exact readBracketed_of_bracketed hitem hR hclose hstart hbracketed hfold rest

end Brackets

end CLib
