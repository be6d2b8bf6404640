-- SUMMARY: Step machines given by a partial step function: runs, invariants of runs, and refinement of machines with outputs.
import Mathlib.Tactic.Common

/-!
# Step machines

A machine is a function that takes a state and an action to the next state, or to nothing when the
action is not enabled. A run is a list of actions; an interleaving of threads is a run whose actions
name the thread they belong to.
-/

namespace Machine

/-! ## Lists of threads -/

/-- When one thread of a list moves on, two counts change. -/
theorem count_set_add {α : Type} [DecidableEq α] {l : List α} {i : Nat} {a : α}
    (h : l[i]? = some a) (b x : α) :
    (l.set i b).count x + (if a = x then 1 else 0) = l.count x + (if b = x then 1 else 0) := by
  obtain ⟨hi, rfl⟩ := List.getElem?_eq_some_iff.mp h
  have hpos : l[i] = x → 0 < l.count x := by
    rintro rfl
    exact List.count_pos_iff.mpr (List.getElem_mem hi)
  rw [List.count_set hi]
  simp only [beq_iff_eq]
  split
  · have := hpos ‹_›
    omega
  · omega

/-! ## Runs and their invariants -/

section Runs

variable {σ α : Type*} {step : σ → α → Option σ}

/-- Take the actions one after the other. -/
def run (step : σ → α → Option σ) : σ → List α → Option σ
  | s, [] => some s
  | s, a :: as => (step s a).bind fun s' => run step s' as

theorem run_cons_eq_some {s s' : σ} {a : α} {as : List α} :
    run step s (a :: as) = some s' ↔ ∃ t, step s a = some t ∧ run step t as = some s' := by
  simp [run, Option.bind_eq_some_iff]

theorem run_append_eq_some {s s'' : σ} {as bs : List α} :
    run step s (as ++ bs) = some s'' ↔
      ∃ s', run step s as = some s' ∧ run step s' bs = some s'' := by
  induction as generalizing s with
  | nil => simp [run]
  | cons a as ih =>
    rw [List.cons_append, run_cons_eq_some]
    constructor
    · rintro ⟨t, ht, hrest⟩
      obtain ⟨s', hs', hrest'⟩ := ih.mp hrest
      exact ⟨s', run_cons_eq_some.mpr ⟨t, ht, hs'⟩, hrest'⟩
    · rintro ⟨s', hs', hrest⟩
      obtain ⟨t, ht, hs'⟩ := run_cons_eq_some.mp hs'
      exact ⟨t, ht, ih.mpr ⟨s', hs', hrest⟩⟩

/-- When the state tells which action comes next, there is one run to an end. -/
theorem run_unique (next : σ → Option α) {P : α → Prop}
    (hnext : ∀ {s a s'}, P a → step s a = some s' → next s = some a) {s s' s'' : σ} {as bs : List α}
    (has : ∀ a ∈ as, P a) (hbs : ∀ b ∈ bs, P b) (hrun : run step s as = some s')
    (hrun' : run step s bs = some s'') (hend : next s' = none) (hend' : next s'' = none) :
    as = bs := by
  induction as generalizing s bs with
  | nil =>
    cases hrun
    cases bs with
    | nil => rfl
    | cons b bs =>
      obtain ⟨t, ht, -⟩ := run_cons_eq_some.mp hrun'
      rw [hnext (hbs b List.mem_cons_self) ht] at hend
      cases hend
  | cons a as ih =>
    obtain ⟨t, ht, hrest⟩ := run_cons_eq_some.mp hrun
    have ha := hnext (has a List.mem_cons_self) ht
    cases bs with
    | nil =>
      cases hrun'
      rw [ha] at hend'
      cases hend'
    | cons b bs =>
      obtain ⟨u, hu, hrest'⟩ := run_cons_eq_some.mp hrun'
      obtain rfl := Option.some.inj (ha.symm.trans (hnext (hbs b List.mem_cons_self) hu))
      obtain rfl := Option.some.inj (ht.symm.trans hu)
      rw [List.forall_mem_cons] at has hbs
      rw [ih has.2 hbs.2 hrest hrest']

/-- Every step of the run meets the guard in the state it is taken from. -/
def Guarded (step : σ → α → Option σ) (G : σ → α → Prop) : σ → List α → Prop
  | _, [] => True
  | s, a :: as => G s a ∧ ∀ s', step s a = some s' → Guarded step G s' as

instance Guarded.decidable {G : σ → α → Prop} [∀ s a, Decidable (G s a)] :
    ∀ s as, Decidable (Guarded step G s as)
  | _, [] => .isTrue trivial
  | s, a :: as =>
    have : Decidable (∀ s', step s a = some s' → Guarded step G s' as) :=
      match _h : step s a with
      | none => .isTrue fun _ h' => nomatch h'
      | some t =>
        match Guarded.decidable t as with
        | .isTrue ht => .isTrue fun _ h' => Option.some.inj h' ▸ ht
        | .isFalse ht => .isFalse fun h' => ht (h' t rfl)
    inferInstanceAs (Decidable (_ ∧ _))

/-- What every guarded step preserves, every guarded run preserves. -/
theorem Guarded.invariant {G : σ → α → Prop} {I : σ → Prop}
    (hstep : ∀ {s a s'}, I s → G s a → step s a = some s' → I s')
    {s s' : σ} {as : List α} (hg : Guarded step G s as) (hrun : run step s as = some s')
    (hs : I s) : I s' := by
  induction as generalizing s with
  | nil =>
    cases hrun
    exact hs
  | cons a as ih =>
    obtain ⟨t, ht, hrest⟩ := run_cons_eq_some.mp hrun
    exact ih (hg.2 t ht) hrest (hstep hs hg.1 ht)

/-- When a property of the state after a step holds before it too and comes with the guard, a run
that ends in the property was guarded. -/
theorem Guarded.of_final {G : σ → α → Prop} {I P : σ → Prop}
    (hI : ∀ {s a s'}, I s → step s a = some s' → I s')
    (hP : ∀ {s a s'}, I s → step s a = some s' → P s' → P s ∧ G s a)
    {s s' : σ} {as : List α} (hrun : run step s as = some s') (hs : I s) (hfin : P s') :
    P s ∧ Guarded step G s as := by
  induction as generalizing s with
  | nil =>
    cases hrun
    exact ⟨hfin, trivial⟩
  | cons a as ih =>
    obtain ⟨t, ht, hrest⟩ := run_cons_eq_some.mp hrun
    obtain ⟨hPt, hgt⟩ := ih hrest (hI hs ht)
    obtain ⟨hPs, hguard⟩ := hP hs ht hPt
    refine ⟨hPs, hguard, fun u hu => ?_⟩
    rw [ht] at hu
    cases hu
    exact hgt

theorem Guarded.of_forall_mem {G : σ → α → Prop} {as : List α} (h : ∀ s, ∀ a ∈ as, G s a) (s : σ) :
    Guarded step G s as := by
  induction as generalizing s with
  | nil => trivial
  | cons a as ih =>
    refine ⟨h s a List.mem_cons_self, fun s' _ => ih (fun s b hb => ?_) s'⟩
    exact h s b (List.mem_cons_of_mem a hb)

/-- A guard on the actions alone can be added to any other. -/
theorem Guarded.and_forall_mem {G : σ → α → Prop} {P : α → Prop} {s : σ} {as : List α}
    (hg : Guarded step G s as) (hP : ∀ a ∈ as, P a) :
    Guarded step (fun s a => G s a ∧ P a) s as := by
  induction as generalizing s with
  | nil => trivial
  | cons a as ih =>
    rw [List.forall_mem_cons] at hP
    exact ⟨⟨hg.1, hP.1⟩, fun s' h => ih (hg.2 s' h) hP.2⟩

/-- What every step preserves, every run preserves. -/
theorem run_invariant {I : σ → Prop} (hstep : ∀ {s a s'}, I s → step s a = some s' → I s')
    {s s' : σ} {as : List α} (hrun : run step s as = some s') (hs : I s) : I s' :=
  (Guarded.of_forall_mem (G := fun _ _ => True) (fun _ _ _ => trivial) s).invariant
    (fun hs _ h => hstep hs h) hrun hs

end Runs

/-! ## Machines whose steps may fail -/

section Checked

variable {σ α ε : Type} {step : σ → α → Option (Except ε σ)}

/-- Nothing follows a failure. -/
def checked (step : σ → α → Option (Except ε σ)) : Except ε σ → α → Option (Except ε σ)
  | .ok s, a => step s a
  | .error _, _ => none

/-- A guard on the states that are reached without a failure. -/
def OnOk (G : σ → α → Prop) : Except ε σ → α → Prop
  | .ok s, a => G s a
  | .error _, _ => True

instance OnOk.decidable {G : σ → α → Prop} [∀ s a, Decidable (G s a)] :
    ∀ (r : Except ε σ) (a : α), Decidable (OnOk G r a)
  | .ok s, a => inferInstanceAs (Decidable (G s a))
  | .error _, _ => .isTrue trivial

/-- What every guarded step that succeeds preserves, holds at the end of a run that succeeds. -/
theorem Guarded.checked_invariant {G : σ → α → Prop} {I : σ → Prop}
    (hstep : ∀ {s a s'}, I s → G s a → step s a = some (.ok s') → I s') {s s' : σ} {as : List α}
    (hg : Guarded (checked step) (OnOk G) (.ok s) as)
    (hrun : run (checked step) (.ok s) as = some (.ok s')) (hs : I s) : I s' := by
  have hlift : ∀ {r : Except ε σ} {a : α} {r' : Except ε σ}, (∀ t, r = .ok t → I t) →
      OnOk G r a → checked step r a = some r' → ∀ t, r' = .ok t → I t := by
    intro r a r' hinv hguard hrun t ht
    cases r with
    | error e => cases hrun
    | ok u =>
      rw [ht] at hrun
      exact hstep (hinv u rfl) hguard hrun
  exact hg.invariant hlift hrun (fun t ht => by cases ht; exact hs) s' rfl

/-- An invariant that each step keeps whose action has a property. -/
theorem checked_run_invariant {P : α → Prop} {I : σ → Prop}
    (hstep : ∀ {s a s'}, I s → P a → step s a = some (.ok s') → I s') {s s' : σ} {as : List α}
    (hrun : run (checked step) (.ok s) as = some (.ok s')) (has : ∀ a ∈ as, P a) (hs : I s) :
    I s' := by
  refine (Guarded.of_forall_mem (G := OnOk fun _ a => P a) ?_ _).checked_invariant hstep hrun hs
  intro r a ha
  cases r with
  | ok t => exact has a ha
  | error e => trivial

/-- When moreover no guarded step fails, neither does the run. -/
theorem Guarded.checked_total {G : σ → α → Prop} {I : σ → Prop}
    (hstep : ∀ {s a r}, I s → G s a → step s a = some r → ∃ s', r = .ok s' ∧ I s') {s : σ}
    {r : Except ε σ} {as : List α} (hg : Guarded (checked step) (OnOk G) (.ok s) as)
    (hrun : run (checked step) (.ok s) as = some r) (hs : I s) : ∃ s', r = .ok s' ∧ I s' := by
  have hlift : ∀ {r : Except ε σ} {a : α} {r' : Except ε σ}, (∃ t, r = .ok t ∧ I t) →
      OnOk G r a → checked step r a = some r' → ∃ t, r' = .ok t ∧ I t := by
    rintro r a r' ⟨t, rfl, ht⟩ hguard hrun
    exact hstep ht hguard hrun
  exact hg.invariant hlift hrun ⟨s, rfl, hs⟩

/-- When a property of the state after a step that succeeds holds before it too and comes with the
guard, a run that ends in the property was guarded. -/
theorem Guarded.checked_of_final {G : σ → α → Prop} {I P : σ → Prop}
    (hI : ∀ {s a s'}, I s → step s a = some (.ok s') → I s')
    (hP : ∀ {s a s'}, I s → step s a = some (.ok s') → P s' → P s ∧ G s a) {s s' : σ}
    {as : List α} (hrun : run (checked step) (.ok s) as = some (.ok s')) (hs : I s)
    (hfin : P s') : Guarded (checked step) (OnOk G) (.ok s) as := by
  have hlift : ∀ {r : Except ε σ} {a : α} {r' : Except ε σ}, (∀ t, r = .ok t → I t) →
      checked step r a = some r' → ∀ t, r' = .ok t → I t := by
    rintro (e | u) a r' hinv hstep t rfl
    · cases hstep
    · exact hI (hinv u rfl) hstep
  have hback : ∀ {r : Except ε σ} {a : α} {r' : Except ε σ}, (∀ t, r = .ok t → I t) →
      checked step r a = some r' → (∃ t, r' = .ok t ∧ P t) →
      (∃ t, r = .ok t ∧ P t) ∧ OnOk G r a := by
    rintro (e | u) a r' hinv hstep ⟨t, rfl, ht⟩
    · cases hstep
    · obtain ⟨hu, hguard⟩ := hP (hinv u rfl) hstep ht
      exact ⟨⟨u, rfl, hu⟩, hguard⟩
  exact (of_final hlift hback hrun (fun t ht => by cases ht; exact hs) ⟨s', rfl, hfin⟩).2

/-- When each guarded step succeeds, and is not seen or is the same step of the specification, a run
is seen as a run of the specification that takes some of its actions. -/
theorem Guarded.checked_simulated {τ : Type} {G : σ → α → Prop} {I : σ → Prop} (view : σ → τ)
    (spec : τ → α → Option τ)
    (hstep : ∀ {s a r}, I s → G s a → step s a = some r →
      ∃ s', r = .ok s' ∧ I s' ∧ (view s' = view s ∨ spec (view s) a = some (view s')))
    {s : σ} {r : Except ε σ} {as : List α} (hg : Guarded (checked step) (OnOk G) (.ok s) as)
    (hrun : run (checked step) (.ok s) as = some r) (hs : I s) :
    ∃ s' bs, r = .ok s' ∧ I s' ∧ bs.Sublist as ∧ run spec (view s) bs = some (view s') := by
  induction as generalizing s with
  | nil =>
    cases hrun
    exact ⟨s, [], rfl, hs, .slnil, rfl⟩
  | cons a as ih =>
    obtain ⟨t, ht, hrest⟩ := run_cons_eq_some.mp hrun
    obtain ⟨u, rfl, hu, hview⟩ := hstep hs hg.1 ht
    obtain ⟨s', bs, hr, hs', hsub, hspec⟩ := ih (hg.2 _ ht) hrest hu
    rcases hview with hview | hview
    · exact ⟨s', bs, hr, hs', hsub.cons a, hview ▸ hspec⟩
    · exact ⟨s', a :: bs, hr, hs', hsub.cons_cons a, run_cons_eq_some.mpr ⟨_, hview, hspec⟩⟩

/-- The state in which a run ends that was seen not to fail. -/
theorem exists_ok {r : Option (Except ε σ)} (h : (r.bind Except.toOption).isSome) :
    ∃ s, r = some (.ok s) := by
  cases r with
  | none => cases h
  | some x =>
    cases x with
    | error e => cases h
    | ok s => exact ⟨s, rfl⟩

end Checked

/-! ## Refinement -/

section Refinement

variable {σ τ α β ε : Type}

/-- Perform the operations one after the other and collect their results. -/
def runOut (step : σ → α → Except ε (σ × β)) : σ → List α → Except ε (σ × List β)
  | s, [] => .ok (s, [])
  | s, a :: as =>
    match step s a with
    | .error e => .error e
    | .ok (s', b) =>
      match runOut step s' as with
      | .error e => .error e
      | .ok (s'', bs) => .ok (s'', b :: bs)

theorem runOut_append {step : σ → α → Except ε (σ × β)} {s s' s'' : σ} {as as' : List α}
    {bs bs' : List β} (h : runOut step s as = .ok (s', bs))
    (h' : runOut step s' as' = .ok (s'', bs')) :
    runOut step s (as ++ as') = .ok (s'', bs ++ bs') := by
  induction as generalizing s bs with
  | nil =>
    cases h
    exact h'
  | cons a as ih =>
    rw [List.cons_append, runOut]
    rw [runOut] at h
    split at h
    · cases h
    · next t b ht =>
      split at h
      · cases h
      · next t' bs₁ ht' =>
        cases h
        simp only [ih ht', List.cons_append]

/-- The same for a specification, which never fails. -/
def runSpec (step : τ → α → τ × β) : τ → List α → τ × List β
  | t, [] => (t, [])
  | t, a :: as =>
    let (t', b) := step t a
    let (t'', bs) := runSpec step t' as
    (t'', b :: bs)

/-- When every operation, from related states, succeeds with the result of the specification and
leads to related states, so does every sequence of operations. -/
theorem runOut_refines {step : σ → α → Except ε (σ × β)} {spec : τ → α → τ × β}
    {R : σ → τ → Prop}
    (hstep : ∀ {s t} a, R s t → ∃ s', step s a = .ok (s', (spec t a).2) ∧ R s' (spec t a).1)
    {s : σ} {t : τ} (as : List α) (h : R s t) :
    ∃ s', runOut step s as = .ok (s', (runSpec spec t as).2) ∧ R s' (runSpec spec t as).1 := by
  induction as generalizing s t with
  | nil => exact ⟨s, rfl, h⟩
  | cons a as ih =>
    obtain ⟨s₁, hs₁, h₁⟩ := hstep a h
    obtain ⟨s₂, hs₂, h₂⟩ := ih h₁
    exact ⟨s₂, by simp [runOut, runSpec, hs₁, hs₂], h₂⟩

end Refinement

end Machine
