-- SUMMARY: The references to an automatic event: taken and given back by firings, the last one by the stopper (autoevent.c).
import ZigbeeService.Sdk.AutoEvent

/-!
# The life of an automatic event

Firings of one automatic event may overlap: each takes a reference when it begins and gives it back
when it returns. The stopper gives back the reference of the device. Whoever gives back the last one
frees the `edgex_autoimpl`.
-/

namespace Zigbee

open CLib

-- ---------------------------------------------------------------------------
-- Firings that overlap
-- ---------------------------------------------------------------------------

/-- The device is there, but locked or disabled. -/
def Firing.skips (f : Firing) : Bool :=
  f.dev.any fun dev => dev.adminState = .locked ∨ dev.operatingState = .disabled

section Functions

variable (ft : FloatText) {L : Type} (ld : LongDouble L) (cb : Libcbor)

/-- An automatic event, the firings of it that have begun and not returned, and its stopper. -/
structure AeLife where
  /-- Nothing once it was freed. -/
  ai : Option EdgexAutoimpl
  running : Nat
  stopped : Bool
  /-- How often it was freed. -/
  freed : Nat

/-- What `edgex_device_autoevent_start` hands to the scheduler. -/
def AeLife.start (resource : CmdInfo) (device : Text) (onChange : Bool) : AeLife where
  ai := some (.start resource device onChange)
  running := 0
  stopped := false
  freed := 0

inductive AeAction where
  /-- The scheduler begins a firing. -/
  | fires
  /-- A firing goes on to its return. -/
  | returns (f : Firing)
  /-- `stopper`. The schedule is deleted: no firing begins from here on. -/
  | stop

/-- A freed `edgex_autoimpl` must not be used. -/
def AeLife.access (s : AeLife) : Checked EdgexAutoimpl :=
  match s.ai with
  | some ai => .ok ai
  | none => .error .danglingPointer

/-- The same event after a call that may have released its `edgex_autoimpl`. -/
def AeLife.after (s : AeLife) (ai : Option EdgexAutoimpl) : AeLife :=
  { s with ai := ai, freed := s.freed + if ai.isNone then 1 else 0 }

/-- Any of the threads goes on. A firing whose computation is not defined does not return. -/
def AeLife.step (s : AeLife) : AeAction → Option (Checked AeLife)
  | .fires =>
    if s.stopped then none
    else some do
      let ai ← s.access
      return { s with ai := some { ai with refs := ai.refs + 1 }, running := s.running + 1 }
  | .returns f =>
    if s.running = 0 then none
    else match s.access with
      | .error e => some (.error e)
      | .ok ai =>
        match (aeRest ft ld cb ai f).outcome with
        | .error _ => none
        | .ok ai => some (.ok { s.after ai with running := s.running - 1 })
  | .stop =>
    if s.stopped then none
    else some do
      let ai ← s.access
      return { s.after ai.release with stopped := true }

end Functions

-- ---------------------------------------------------------------------------
-- The references of one firing
-- ---------------------------------------------------------------------------

section Firings

variable {ft : FloatText} {L : Type} {ld : LongDouble L} {cb : Libcbor} {ai : EdgexAutoimpl}
  {f : Firing}
  {r : Option EdgexAutoimpl}

/-- A firing that finds its device locked or disabled keeps its reference. -/
theorem aeRest_skips (hskips : f.skips = true) : aeRest ft ld cb ai f = ⟨[], .ok (some ai)⟩ := by
  rw [Firing.skips, Option.any_eq_true] at hskips
  obtain ⟨dev, hdev, hskips⟩ := hskips
  simp only [aeRest, hdev, if_pos (of_decide_eq_true hskips)]

/-- Every other way through a firing ends with the release of its reference. -/
theorem aeRest_releases (hskips : f.skips = false) (h : (aeRest ft ld cb ai f).outcome = .ok r) :
    ∃ last, r = EdgexAutoimpl.release { ai with last := last } := by
  cases hdev : f.dev with
  | none =>
    -- an unknown device
    simp only [aeRest, hdev] at h
    cases h
    exact ⟨ai.last, rfl⟩
  | some dev =>
    have hregular : ¬ (dev.adminState = .locked ∨ dev.operatingState = .disabled) := by
      rw [Firing.skips, hdev, Option.any_some] at hskips
      exact of_decide_eq_false hskips
    simp only [aeRest, hdev, if_neg hregular] at h
    split at h
    · -- the driver fails
      cases h
      exact ⟨ai.last, rfl⟩
    · next v hget =>
      dsimp only at h
      unfold aePublish at h
      split at h
      · -- nothing has changed
        cases h
        exact ⟨ai.last, rfl⟩
      · dsimp only at h
        split at h
        · cases h
        · -- the event is posted, or the post fails
          cases h
          split
          · exact ⟨_, rfl⟩
          · exact ⟨ai.last, rfl⟩
        · -- an assertion fails
          cases h
          exact ⟨ai.last, rfl⟩

/-- A firing gives back as many references as it took unless it skips its device. -/
theorem aeRunner_refs (hrefs : 1 ≤ ai.refs) (h : (aeRunner ft ld cb ai f).outcome = .ok r) :
    r.map (·.refs) = some ai.refs ↔ f.skips = false := by
  rw [aeRunner] at h
  cases hskips : f.skips with
  | true =>
    rw [aeRest_skips hskips] at h
    cases h
    simp
  | false =>
    obtain ⟨last, rfl⟩ := aeRest_releases hskips h
    rw [release_retained { ai with last := last } hrefs]
    simp

end Firings

-- ---------------------------------------------------------------------------
-- Runs
-- ---------------------------------------------------------------------------

section Runs

variable {ft : FloatText} {L : Type} {ld : LongDouble L} {cb : Libcbor} {s : AeLife} {kept : Nat}

/-- The references that firings kept when they returned. -/
def keptRefs (as : List AeAction) : Nat :=
  as.countP fun
    | .returns f => f.skips
    | _ => false

/-- A reference for each firing under way, one of the device until its event is stopped, and those
that were kept. -/
def AeLife.owed (s : AeLife) (kept : Nat) : Nat :=
  s.running + (if s.stopped then 0 else 1) + kept

/-- The count is what is owed, and the `edgex_autoimpl` is freed when that becomes nothing. -/
def AeLife.Counts (s : AeLife) (kept : Nat) : Prop :=
  match s.ai with
  | some ai => ai.refs = s.owed kept ∧ 1 ≤ ai.refs ∧ s.freed = 0
  | none => s.owed kept = 0 ∧ s.freed = 1

theorem AeLife.counts_start (resource : CmdInfo) (device : Text) (onChange : Bool) :
    (AeLife.start resource device onChange).Counts 0 :=
  ⟨rfl, Nat.le_refl 1, rfl⟩

/-- Whoever releases the last reference frees. -/
theorem AeLife.counts_of_release {ai : EdgexAutoimpl} (hai : s.ai = ai.release)
    (hfreed : s.freed = if ai.release.isNone then 1 else 0) (howed : ai.refs = s.owed kept + 1) :
    s.Counts kept := by
  rw [Counts, hai, hfreed]
  unfold EdgexAutoimpl.release
  by_cases hlast : ai.refs = 1
  · rw [if_pos hlast]
    exact ⟨by omega, rfl⟩
  · rw [if_neg hlast]
    refine ⟨?_, ?_, rfl⟩
    · dsimp only
      omega
    · dsimp only
      omega

/-- While a firing is under way or the event is not stopped, it is not freed. -/
theorem AeLife.Counts.access (h : s.Counts kept) (howed : 1 ≤ s.owed kept) :
    ∃ ai, s.access = .ok ai ∧ ai.refs = s.owed kept ∧ s.freed = 0 := by
  rw [Counts] at h
  rw [AeLife.access]
  cases hai : s.ai with
  | none =>
    rw [hai] at h
    exact absurd h.1 (by omega)
  | some ai =>
    rw [hai] at h
    exact ⟨ai, rfl, h.1, h.2.2⟩

/-- Before it is stopped, one of the references to the event is the device's. -/
theorem AeLife.Counts.access_live (h : s.Counts kept) (hlive : ¬ s.stopped = true) :
    ∃ ai, s.access = .ok ai ∧ ai.refs = s.running + 1 + kept ∧ s.freed = 0 := by
  have howed : s.owed kept = s.running + 1 + kept := by rw [AeLife.owed, if_neg hlive]
  rw [← howed]
  exact h.access (by omega)

/-- No step uses a freed event, and each keeps the count. -/
theorem AeLife.Counts.step (h : s.Counts kept) {a : AeAction} {r : Checked AeLife}
    (hstep : s.step ft ld cb a = some r) : ∃ t, r = .ok t ∧ t.Counts (kept + keptRefs [a]) := by
  cases a with
  | fires =>
    rw [AeLife.step] at hstep
    split at hstep
    · cases hstep
    · next hstopped =>
      obtain ⟨ai, haccess, hrefs, hfreed⟩ := h.access_live hstopped
      rw [haccess, Checked.ok_bind] at hstep
      cases hstep
      refine ⟨_, rfl, ?_, Nat.le_add_left 1 _, hfreed⟩
      rw [AeLife.owed, if_neg hstopped, hrefs]
      exact Nat.add_right_comm _ _ _
  | returns f =>
    rw [AeLife.step] at hstep
    split at hstep
    · cases hstep
    · next hrunning =>
      have howed : s.owed kept = s.running + (if s.stopped then 0 else 1) + kept := rfl
      obtain ⟨ai, haccess, hrefs, hfreed⟩ := h.access (by omega)
      rw [haccess] at hstep
      dsimp only at hstep
      cases hrest : (aeRest ft ld cb ai f).outcome with
      | error e =>
        rw [hrest] at hstep
        cases hstep
      | ok r =>
        rw [hrest] at hstep
        cases hstep
        have howed' (k : Nat) : AeLife.owed { s.after r with running := s.running - 1 } k =
            s.running - 1 + (if s.stopped then 0 else 1) + k := rfl
        refine ⟨_, rfl, ?_⟩
        cases hskips : f.skips with
        | true =>
          have hkept : keptRefs [.returns f] = 1 := by simp [keptRefs, hskips]
          rw [aeRest_skips hskips] at hrest
          cases hrest
          rw [hkept]
          refine ⟨?_, ?_, hfreed⟩
          · rw [hrefs, howed, howed']
            omega
          · omega
        | false =>
          have hkept : keptRefs [.returns f] = 0 := by simp [keptRefs, hskips]
          obtain ⟨last, rfl⟩ := aeRest_releases hskips hrest
          rw [hkept]
          refine AeLife.counts_of_release rfl (by simp [AeLife.after, hfreed]) ?_
          rw [howed']
          dsimp only
          omega
  | stop =>
    rw [AeLife.step] at hstep
    split at hstep
    · cases hstep
    · next hstopped =>
      obtain ⟨ai, haccess, hrefs, hfreed⟩ := h.access_live hstopped
      rw [haccess, Checked.ok_bind] at hstep
      cases hstep
      refine ⟨_, rfl, AeLife.counts_of_release rfl (by simp [AeLife.after, hfreed]) ?_⟩
      rw [hrefs, AeLife.owed, if_pos rfl]
      exact Nat.add_right_comm _ _ _

theorem keptRefs_cons (a : AeAction) (as : List AeAction) :
    keptRefs (a :: as) = keptRefs [a] + keptRefs as := by
  rw [← List.singleton_append, keptRefs, List.countP_append, keptRefs, keptRefs]

/-- What every step keeps, over a whole run. -/
theorem AeLife.Counts.run {as : List AeAction} {r : Checked AeLife} (h : s.Counts kept)
    (hrun : Machine.run (Machine.checked (AeLife.step ft ld cb)) (.ok s) as = some r) :
    ∃ t, r = .ok t ∧ t.Counts (kept + keptRefs as) := by
  induction as generalizing s kept with
  | nil =>
    cases hrun
    exact ⟨s, rfl, h⟩
  | cons a as ih =>
    obtain ⟨r', hstep, hrest⟩ := Machine.run_cons_eq_some.mp hrun
    obtain ⟨t, rfl, ht⟩ := h.step hstep
    rw [keptRefs_cons, ← Nat.add_assoc]
    exact ih ht hrest

/-- At the end all references have been given back exactly when none was kept. -/
theorem AeLife.Counts.freed_iff (h : s.Counts kept) (hidle : s.running = 0)
    (hstopped : s.stopped = true) : s.ai = none ∧ s.freed = 1 ↔ kept = 0 := by
  have howed : s.owed kept = kept := by rw [AeLife.owed, hidle, if_pos hstopped, Nat.zero_add]
  rw [Counts, howed] at h
  cases hai : s.ai with
  | none =>
    rw [hai] at h
    exact iff_of_true ⟨rfl, h.2⟩ h.1
  | some ai =>
    rw [hai] at h
    refine iff_of_false (fun hnone => ?_) (by omega)
    cases hnone.1

theorem keptRefs_eq_zero {as : List AeAction} :
    keptRefs as = 0 ↔ ∀ f, .returns f ∈ as → f.skips = false := by
  rw [keptRefs, List.countP_eq_zero]
  constructor
  · exact fun h f hf => Bool.eq_false_iff.mpr (h _ hf)
  · intro h a ha
    cases a with
    | returns f => simp [h f ha]
    | fires => simp
    | stop => simp

end Runs

variable (ft : FloatText) {L : Type} (ld : LongDouble L) (cb : Libcbor) in
/-- A firing gives back the references it took exactly when it does not find its device locked or
disabled. In no run of overlapping firings and a stopper is the event used after it was freed; when
the event is stopped and all firings have returned, it was freed, and once, exactly when no firing
found its device locked or disabled. -/
theorem aeRunner_balanced_iff :
    (∀ (ai : EdgexAutoimpl) (f : Firing) (r : Option EdgexAutoimpl), 1 ≤ ai.refs →
      (aeRunner ft ld cb ai f).outcome = .ok r →
      (r.map (·.refs) = some ai.refs ↔ f.skips = false)) ∧
    ∀ (resource : CmdInfo) (device : Text) (onChange : Bool) (as : List AeAction)
      (r : Checked AeLife), Machine.run (Machine.checked (AeLife.step ft ld cb))
        (.ok (.start resource device onChange)) as = some r →
      ∃ s, r = .ok s ∧ (s.running = 0 → s.stopped = true →
        (s.ai = none ∧ s.freed = 1 ↔ ∀ f, .returns f ∈ as → f.skips = false)) := by
  refine ⟨fun ai f r hrefs h => aeRunner_refs hrefs h, ?_⟩
  intro resource device onChange as r hrun
  obtain ⟨s, rfl, hcounts⟩ := (AeLife.counts_start resource device onChange).run hrun
  rw [Nat.zero_add] at hcounts
  refine ⟨s, rfl, fun hidle hstopped => ?_⟩
  rw [hcounts.freed_iff hidle hstopped, keptRefs_eq_zero]

/-! ### A locked meter -/

/-- A firing of the meter after its device was locked. -/
def lockedFiring : Firing :=
  { meterFiring true with dev := some { meterInfo with adminState := .locked } }

/-- One firing finds the meter locked and keeps its reference. The event is stopped, and never
freed. -/
theorem lockedFiring_neverFreed :
    (∃ ai, (aeRunner FloatText.empty LongDouble.empty Libcbor.ofList
        (.start (plugRead (lit "Power") .uint16) (lit "Plug") true) lockedFiring).outcome =
      .ok (some ai) ∧ ai.refs = 2) ∧
    ∃ s, Machine.run (Machine.checked (AeLife.step FloatText.empty LongDouble.empty Libcbor.ofList))
        (.ok (.start (plugRead (lit "Power") .uint16) (lit "Plug") true))
        [.fires, .returns lockedFiring, .stop] = some (.ok s) ∧
      s.running = 0 ∧ s.stopped = true ∧ s.freed = 0 ∧ s.ai.map (·.refs) = some 1 :=
  ⟨⟨_, rfl, rfl⟩, _, rfl, rfl, rfl, rfl, rfl⟩

end Zigbee
