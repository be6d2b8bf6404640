-- SUMMARY: Lists of keys with values, read by their first entry and written by overwriting.
import Mathlib.Data.List.Nodup

/-!
# Association lists

`assocGet` finds the first entry of a key. `assocSet` overwrites it, or adds an entry behind the
others, so a list built by it alone has no key twice.
-/

namespace CLib

variable {κ α β : Type} [DecidableEq κ]

/-- The value of the first entry of `key`. -/
def assocGet (key : κ) (l : List (κ × α)) : Option α := l.lookup key

/-- Store `v` under `key`: over the first entry of that key, or in a new one behind the others. -/
def assocSet (key : κ) (v : α) : List (κ × α) → List (κ × α)
  | [] => [(key, v)]
  | (k, w) :: l => if k = key then (key, v) :: l else (k, w) :: assocSet key v l

/-- The list that stores the pairs one after the other. -/
def assocOf (ps : List (κ × α)) : List (κ × α) := ps.foldl (fun l p => assocSet p.1 p.2 l) []

/-- The same value, or none, under every key. -/
def SameMap (l₁ l₂ : List (κ × α)) : Prop := ∀ key, assocGet key l₁ = assocGet key l₂

theorem assocGet_nil (key : κ) : assocGet key ([] : List (κ × α)) = none := rfl

theorem assocGet_cons (key k : κ) (v : α) (l : List (κ × α)) :
    assocGet key ((k, v) :: l) = if key = k then some v else assocGet key l := by
  unfold assocGet
  by_cases h : key = k
  · subst h
    simp
  · have hbeq : (key == k) = false := by simpa using h
    rw [List.lookup_cons, hbeq, if_neg h]

theorem assocGet_append (key : κ) (l₁ l₂ : List (κ × α)) :
    assocGet key (l₁ ++ l₂) = (assocGet key l₁).or (assocGet key l₂) := List.lookup_append

theorem assocGet_eq_none {key : κ} {l : List (κ × α)} :
    assocGet key l = none ↔ key ∉ l.map Prod.fst := by
  rw [assocGet, List.lookup_eq_none_iff, List.mem_map]
  constructor
  · rintro h ⟨p, hp, rfl⟩
    simpa using h p hp
  · intro h p hp
    have hne : key ≠ p.1 := fun heq => h ⟨p, hp, heq.symm⟩
    simpa using hne

theorem assocGet_map (f : α → β) (key : κ) (l : List (κ × α)) :
    assocGet key (l.map (Prod.map id f)) = (assocGet key l).map f := by
  induction l with
  | nil => rfl
  | cons p l ih =>
    obtain ⟨k, v⟩ := p
    rw [List.map_cons, Prod.map_apply, id_eq, assocGet_cons, assocGet_cons, ih]
    by_cases h : key = k <;> simp [h]

/-! ## Storing -/

theorem assocGet_assocSet (key name : κ) (v : α) (l : List (κ × α)) :
    assocGet key (assocSet name v l) = if key = name then some v else assocGet key l := by
  induction l with
  | nil => exact assocGet_cons key name v []
  | cons p l ih =>
    obtain ⟨k, w⟩ := p
    rw [assocSet, assocGet_cons]
    by_cases hk : k = name
    · subst hk
      rw [if_pos rfl, assocGet_cons]
      by_cases h : key = k <;> simp [h]
    · rw [if_neg hk, assocGet_cons, ih]
      by_cases h : key = k
      · subst h
        simp [hk]
      · simp [h]

/-- A key that was there keeps its place; a new one comes last. -/
theorem keys_assocSet (name : κ) (v : α) (l : List (κ × α)) :
    (assocSet name v l).map Prod.fst =
      if name ∈ l.map Prod.fst then l.map Prod.fst else l.map Prod.fst ++ [name] := by
  induction l with
  | nil => rfl
  | cons p l ih =>
    obtain ⟨k, w⟩ := p
    rw [assocSet]
    by_cases hk : k = name
    · subst hk
      simp
    · have hne : name ≠ k := fun h => hk h.symm
      rw [if_neg hk, List.map_cons, ih]
      by_cases hmem : name ∈ l.map Prod.fst
      · rw [if_pos hmem, List.map_cons, if_pos (List.mem_cons_of_mem _ hmem)]
      · rw [if_neg hmem, List.map_cons, if_neg (by simpa [hne] using hmem), List.cons_append]

theorem mem_assocSet {name : κ} {v : α} {l : List (κ × α)} {p : κ × α}
    (h : p ∈ assocSet name v l) : p = (name, v) ∨ p ∈ l := by
  induction l with
  | nil => exact .inl (List.mem_singleton.mp h)
  | cons q l ih =>
    rw [assocSet] at h
    split at h
    · rw [List.mem_cons] at h ⊢
      exact h.imp_right .inr
    · rw [List.mem_cons] at h ⊢
      exact h.elim (fun hq => .inr (.inl hq)) fun hl => (ih hl).imp_right .inr

theorem nodup_assocSet {name : κ} {v : α} {l : List (κ × α)} (h : (l.map Prod.fst).Nodup) :
    ((assocSet name v l).map Prod.fst).Nodup := by
  rw [keys_assocSet]
  split
  · exact h
  · next hnew =>
    rw [List.nodup_append]
    refine ⟨h, List.nodup_singleton name, ?_⟩
    intro k hk k' hk' heq
    rw [List.mem_singleton] at hk'
    subst heq hk'
    exact hnew hk

/-- Storing an image under a map is the image of storing. -/
theorem assocSet_map (f : α → β) (name : κ) (v : α) (l : List (κ × α)) :
    assocSet name (f v) (l.map (Prod.map id f)) = (assocSet name v l).map (Prod.map id f) := by
  induction l with
  | nil => rfl
  | cons p l ih =>
    obtain ⟨k, w⟩ := p
    simp only [List.map_cons, Prod.map_apply, id_eq, assocSet]
    by_cases hk : k = name <;> simp [hk, ih]

/-! ## Storing a list -/

theorem assocGet_foldl_assocSet (key : κ) (ps l : List (κ × α)) :
    assocGet key (ps.foldl (fun l p => assocSet p.1 p.2 l) l) =
      (assocGet key ps.reverse).or (assocGet key l) := by
  induction ps generalizing l with
  | nil => rfl
  | cons p ps ih =>
    rw [List.foldl_cons, ih, assocGet_assocSet, List.reverse_cons, assocGet_append, Option.or_assoc,
      assocGet_cons, assocGet_nil]
    by_cases h : key = p.1 <;> simp [h]

/-- The last pair of a key wins. -/
theorem assocGet_assocOf (key : κ) (ps : List (κ × α)) :
    assocGet key (assocOf ps) = assocGet key ps.reverse := by
  rw [assocOf, assocGet_foldl_assocSet, assocGet_nil, Option.or_none]

theorem nodup_assocOf (ps : List (κ × α)) : ((assocOf ps).map Prod.fst).Nodup := by
  have h : ∀ l : List (κ × α), (l.map Prod.fst).Nodup →
      ((ps.foldl (fun l p => assocSet p.1 p.2 l) l).map Prod.fst).Nodup := by
    induction ps with
    | nil => exact fun l hl => hl
    | cons p ps ih => exact fun l hl => ih _ (nodup_assocSet hl)
  exact h [] List.nodup_nil

theorem assocOf_map (f : α → β) (ps : List (κ × α)) :
    assocOf (ps.map (Prod.map id f)) = (assocOf ps).map (Prod.map id f) := by
  have h : ∀ l : List (κ × α),
      (ps.map (Prod.map id f)).foldl (fun l p => assocSet p.1 p.2 l) (l.map (Prod.map id f)) =
        (ps.foldl (fun l p => assocSet p.1 p.2 l) l).map (Prod.map id f) := by
    induction ps with
    | nil => exact fun l => rfl
    | cons p ps ih =>
      intro l
      simp only [List.map_cons, List.foldl_cons, Prod.map_fst, Prod.map_snd, id_eq, assocSet_map]
      exact ih _
  exact h []

/-- A list without a key twice is stored as it is. -/
theorem assocOf_of_nodup {l : List (κ × α)} (h : (l.map Prod.fst).Nodup) : assocOf l = l := by
  have hnew : ∀ (k : κ) (v : α) (acc : List (κ × α)), k ∉ acc.map Prod.fst →
      assocSet k v acc = acc ++ [(k, v)] := by
    intro k v acc hk
    induction acc with
    | nil => rfl
    | cons p acc ih =>
      rw [List.map_cons, List.mem_cons, not_or] at hk
      rw [assocSet, if_neg (fun heq => hk.1 heq.symm), ih hk.2, List.cons_append]
  have hfold : ∀ acc : List (κ × α), ((acc ++ l).map Prod.fst).Nodup →
      l.foldl (fun l p => assocSet p.1 p.2 l) acc = acc ++ l := by
    clear h
    induction l with
    | nil => exact fun acc _ => (List.append_nil acc).symm
    | cons p l ih =>
      intro acc hnodup
      have hp : p.1 ∉ acc.map Prod.fst := by
        rw [List.map_append, List.map_cons, List.nodup_append] at hnodup
        exact fun hmem => hnodup.2.2 _ hmem _ List.mem_cons_self rfl
      have happend : acc ++ p :: l = (acc ++ [p]) ++ l := List.append_cons acc p l
      rw [List.foldl_cons, hnew _ _ _ hp, ih _ (happend ▸ hnodup), ← happend]
  exact hfold [] h

/-! ## Order -/

/-- Without a key twice, the order of the entries does not matter. -/
theorem assocGet_reverse {l : List (κ × α)} (h : (l.map Prod.fst).Nodup) (key : κ) :
    assocGet key l.reverse = assocGet key l := by
  induction l with
  | nil => rfl
  | cons p l ih =>
    obtain ⟨k, v⟩ := p
    rw [List.map_cons, List.nodup_cons] at h
    rw [List.reverse_cons, assocGet_append, ih h.2, assocGet_cons, assocGet_cons, assocGet_nil]
    by_cases hk : key = k
    · subst hk
      simp [assocGet_eq_none.mpr h.1]
    · simp [hk]

/-- Without a key twice, every entry is the first one of its key. -/
theorem assocGet_of_mem {l : List (κ × α)} (h : (l.map Prod.fst).Nodup) {p : κ × α} (hp : p ∈ l) :
    assocGet p.1 l = some p.2 := by
  induction l with
  | nil => cases hp
  | cons q l ih =>
    rw [List.map_cons, List.nodup_cons] at h
    rw [assocGet_cons]
    rcases List.mem_cons.mp hp with rfl | hmem
    · exact if_pos rfl
    · have hne : p.1 ≠ q.1 := fun heq => h.1 (heq ▸ List.mem_map_of_mem hmem)
      rw [if_neg hne]
      exact ih h.2 hmem

/-- Stored and read back from the end, a list is the same map exactly when the first and the last
pair of every key agree. -/
theorem sameMap_assocOf_reverse {ps : List (κ × α)} :
    SameMap (assocOf ps).reverse ps ↔ SameMap ps.reverse ps := by
  simp only [SameMap, assocGet_reverse (nodup_assocOf ps), assocGet_assocOf]

end CLib
