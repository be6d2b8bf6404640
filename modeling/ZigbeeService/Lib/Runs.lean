-- SUMMARY: Lists in which runs of a separator are collapsed to one.
import Mathlib.Data.List.TakeWhile
import Mathlib.Data.List.Infix

/-!
# Runs of a separator

Two lists that differ only in how long their runs of a separator are have one list without two
separators in a row in common.
-/

namespace CLib

variable {α : Type*}

/-- The same elements, with runs of the separator in the same places. -/
inductive SameRuns (sep : α) : List α → List α → Prop where
  | nil : SameRuns sep [] []
  | other {c : α} {s t : List α} : c ≠ sep → SameRuns sep s t → SameRuns sep (c :: s) (c :: t)
  /-- A run, up to an element that is not the separator. -/
  | run (m n : Nat) {s t : List α} : s.head? ≠ some sep → t.head? ≠ some sep → SameRuns sep s t →
      SameRuns sep (List.replicate (m + 1) sep ++ s) (List.replicate (n + 1) sep ++ t)

/-- No two separators in a row. -/
def SingleRuns (sep : α) (s : List α) : Prop := ¬ [sep, sep] <:+: s

variable [DecidableEq α] {sep : α} {s t : List α}

/-- Every run becomes one separator. -/
def collapse (sep : α) : List α → List α
  | [] => []
  | [c] => [c]
  | c :: d :: s =>
    if c = sep ∧ d = sep then collapse sep (d :: s) else c :: collapse sep (d :: s)

theorem head?_collapse (sep : α) (s : List α) : (collapse sep s).head? = s.head? := by
  induction s with
  | nil => rfl
  | cons c s ih =>
    cases s with
    | nil => rfl
    | cons d s =>
      rw [collapse]
      split
      · next h => rw [ih, h.1, h.2]; rfl
      · rfl

theorem collapse_cons_of_ne {c : α} (hc : c ≠ sep) (s : List α) :
    collapse sep (c :: s) = c :: collapse sep s := by
  cases s with
  | nil => rfl
  | cons d s => rw [collapse, if_neg fun h => hc h.1]

theorem collapse_cons_of_head (c : α) (hs : s.head? ≠ some sep) :
    collapse sep (c :: s) = c :: collapse sep s := by
  cases s with
  | nil => rfl
  | cons d s =>
    have hd : d ≠ sep := fun h => hs (by rw [h]; rfl)
    rw [collapse, if_neg fun h => hd h.2]

theorem collapse_sep_sep (s : List α) : collapse sep (sep :: sep :: s) = collapse sep (sep :: s) :=
  if_pos ⟨rfl, rfl⟩

/-- A run counts as its first separator. -/
theorem collapse_replicate (n : Nat) (hs : s.head? ≠ some sep) :
    collapse sep (List.replicate (n + 1) sep ++ s) = sep :: collapse sep s := by
  induction n with
  | zero => exact collapse_cons_of_head sep hs
  | succ n ih =>
    rw [List.replicate_succ, List.replicate_succ, List.cons_append, List.cons_append,
      collapse_sep_sep, ← List.cons_append, ← List.replicate_succ, ih]

/-- What follows a separator is read from the end of its run on. -/
theorem collapse_sep_cons (s : List α) :
    collapse sep (sep :: s) = sep :: collapse sep (s.dropWhile (· = sep)) := by
  induction s with
  | nil => rfl
  | cons c s ih =>
    by_cases hc : c = sep
    · rw [hc, collapse_sep_sep, ih, List.dropWhile_cons_of_pos (by simp)]
    · rw [List.dropWhile_cons_of_neg (by simpa using hc)]
      exact collapse_cons_of_head sep (by simpa using hc)

theorem SameRuns.collapse_eq (h : SameRuns sep s t) : collapse sep s = collapse sep t := by
  induction h with
  | nil => rfl
  | other hc _ ih => rw [collapse_cons_of_ne hc, collapse_cons_of_ne hc, ih]
  | run m n hs ht _ ih => rw [collapse_replicate m hs, collapse_replicate n ht, ih]

/-- A collapsed list has its runs where the list has them. -/
theorem sameRuns_collapse (sep : α) : ∀ s : List α, SameRuns sep s (collapse sep s)
  | [] => .nil
  | c :: s => by
    by_cases hc : c = sep
    · subst hc
      -- the run that starts here, and what follows it
      have hlen : (s.dropWhile (· = c)).length < (c :: s).length :=
        Nat.lt_succ_of_le (List.length_dropWhile_le _ s)
      have hrun : s.takeWhile (· = c) = List.replicate (s.takeWhile (· = c)).length c :=
        List.eq_replicate_of_mem fun d hd => by simpa using List.mem_takeWhile_imp hd
      have hsplit : c :: s =
          List.replicate ((s.takeWhile (· = c)).length + 1) c ++ s.dropWhile (· = c) := by
        rw [List.replicate_succ, ← hrun, List.cons_append, List.takeWhile_append_dropWhile]
      have hrest : (s.dropWhile (· = c)).head? ≠ some c := by
        intro hhead
        simpa [hhead] using List.head?_dropWhile_not (· = c) s
      rw [collapse_sep_cons]
      conv => arg 2; rw [hsplit]
      exact .run _ 0 hrest (by rwa [head?_collapse]) (sameRuns_collapse c (s.dropWhile (· = c)))
    · rw [collapse_cons_of_ne hc]
      exact .other hc (sameRuns_collapse sep s)
termination_by s => s.length
decreasing_by
  · exact hlen
  · exact Nat.lt_succ_self _

theorem singleRuns_collapse (sep : α) (s : List α) : SingleRuns sep (collapse sep s) := by
  induction s with
  | nil => simp [SingleRuns, collapse]
  | cons c s ih =>
    cases s with
    | nil => simp [SingleRuns, collapse, List.infix_cons_iff]
    | cons d s =>
      rw [collapse]
      split
      · exact ih
      · next hne =>
        intro hinfix
        rcases List.infix_cons_iff.mp hinfix with hprefix | hinfix
        · rw [List.cons_prefix_cons] at hprefix
          obtain ⟨rfl, hprefix⟩ := hprefix
          have hhead := head?_collapse sep (d :: s)
          obtain ⟨rest, hrest⟩ := hprefix
          rw [← hrest] at hhead
          exact hne ⟨rfl, (Option.some.inj hhead).symm⟩
        · exact ih hinfix

/-- There is nothing to collapse. -/
theorem SingleRuns.collapse_eq (h : SingleRuns sep s) : collapse sep s = s := by
  induction s with
  | nil => rfl
  | cons c s ih =>
    cases s with
    | nil => rfl
    | cons d s =>
      have hne : ¬ (c = sep ∧ d = sep) := by
        rintro ⟨rfl, rfl⟩
        exact h ⟨[], s, rfl⟩
      rw [collapse, if_neg hne, ih fun hinfix => h (List.infix_cons hinfix)]

theorem collapse_idem (sep : α) (s : List α) : collapse sep (collapse sep s) = collapse sep s :=
  (singleRuns_collapse sep s).collapse_eq

theorem length_collapse_le (sep : α) (s : List α) : (collapse sep s).length ≤ s.length := by
  induction s with
  | nil => exact Nat.le_refl _
  | cons c s ih =>
    cases s with
    | nil => exact Nat.le_refl _
    | cons d s =>
      rw [collapse]
      split
      · exact Nat.le_succ_of_le ih
      · exact Nat.succ_le_succ ih

end CLib
