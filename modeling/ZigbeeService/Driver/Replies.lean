-- SUMMARY: What becomes of the lines on QueueGetHandler, over every interleaving of the RX thread with the GET handlers.
import ZigbeeService.Driver.System

/-!
# Claiming replies

A poll takes the lock, looks at the first line, parses it, removes it when it is accepted, and gives
the lock back. Nothing else can touch the queue in between, so the line that is removed is the line
that was parsed.
-/

namespace Zigbee

open CLib

variable {ft : FloatText} {s s' : State} {a : Action} {i : Nat} {c : GetCall}

/-! ## Phases -/

namespace Phase

/-- The handler holds the lock. -/
def locked : Phase → Bool
  | .holding _ | .peeked _ _ | .parsed _ _ _ | .cleared _ => true
  | _ => false

/-- The line that the handler has a copy of and that it has not removed. -/
def strGet : Phase → Option (Tagged Line)
  | .peeked _ strGet => strGet
  | .parsed _ strGet _ => some strGet
  | _ => none

/-- The line that the handler has accepted, until it returns. -/
def accepted : Phase → Option (Tagged Line)
  | .parsed _ strGet true => some strGet
  | .cleared strGet => some strGet
  | _ => none

/-- The handler has removed a line. -/
def claimed : Phase → Bool
  | .cleared _ | .returned true => true
  | _ => false

theorem Unlocks.locked {phase phase' : Phase} (h : phase.Unlocks phase') :
    phase.locked = true := by
  cases h <;> rfl

theorem Unlocks.after {phase phase' : Phase} (h : phase.Unlocks phase') :
    phase'.locked = false ∧ phase'.strGet = none ∧ phase'.accepted = none ∧
      phase'.claimed = phase.claimed ∧ ∀ strGet, phase' ≠ .cleared strGet := by
  cases h <;> exact ⟨rfl, rfl, rfl, rfl, fun _ h => by cases h⟩

theorem Unlocks.returned {phase phase' : Phase} (h : phase.Unlocks phase')
    (hreturned : phase' = .returned true) : ∃ strGet, phase = .cleared strGet := by
  cases h with
  | empty count => cases hreturned
  | rejected count strGet => cases hreturned
  | accepted strGet => exact ⟨strGet, rfl⟩

end Phase

/-- The readings of the call are what `user_repget_event_read` made of the line. -/
def Accepts (ft : FloatText) (c : GetCall) (line : Tagged Line) : Prop :=
  ∃ readings, userRepgetEventRead ft readings c.devname c.requests line.val.text =
    .ok (true, c.readings)

/-! ## Invariants -/

/-- What holds of one call in every reachable state. -/
structure CallInv (ft : FloatText) (s : State) (i : Nat) (c : GetCall) : Prop where
  locked : c.phase.locked = true ↔ s.owner = some i
  front : ∀ e, c.phase.strGet = some e → s.queueGetHandler.queue.front = some e
  accepted : ∀ e, c.phase.accepted = some e → Accepts ft c e
  claimed : (∃ e, (i, e) ∈ s.claims) ↔ c.phase.claimed = true
  cleared : ∀ e, c.phase = .cleared e → (i, e) ∈ s.claims
  returned : c.phase = .returned true → ∃ e, (i, e) ∈ s.claims ∧ Accepts ft c e

/-- What holds of all calls together. -/
structure RepliesInv (ft : FloatText) (s : State) : Prop where
  cap : s.queueGetHandler.queue.cap = 10
  calls : ∀ i c, s.call i = some c → CallInv ft s i c
  owner : ∀ i, s.owner = some i → ∃ c, s.call i = some c
  claimant : ∀ i e, (i, e) ∈ s.claims → ∃ c, s.call i = some c
  claimants : (s.claims.map Prod.fst).Nodup
  taken : s.claims.map Prod.snd = s.queueGetHandler.taken

theorem RepliesInv.init (ft : FloatText) : RepliesInv ft State.init where
  cap := rfl
  calls := by intro i c h; cases h
  owner := by intro i h; cases h
  claimant := by intro i e h; cases h
  claimants := List.nodup_nil
  taken := rfl

/-- A call does not notice what the others do while it does not hold the lock. -/
theorem CallInv.frame (h : CallInv ft s i c) (howner : s'.owner = some i ↔ s.owner = some i)
    (hqueue : s.owner = some i → s'.queueGetHandler = s.queueGetHandler)
    (hclaims : ∀ e, (i, e) ∈ s'.claims ↔ (i, e) ∈ s.claims) : CallInv ft s' i c where
  locked := h.locked.trans howner.symm
  front := by
    intro e he
    have hlocked : c.phase.locked = true := by
      cases hphase : c.phase <;> simp_all [Phase.strGet, Phase.locked]
    rw [hqueue (h.locked.mp hlocked)]
    exact h.front e he
  accepted := h.accepted
  claimed := by simp only [hclaims]; exact h.claimed
  cleared := fun e he => (hclaims e).mpr (h.cleared e he)
  returned := by simp only [hclaims]; exact h.returned

/-- Steps that touch neither the lines nor a GET call. -/
theorem RepliesInv.congr (hs : RepliesInv ft s) (howner : s'.owner = s.owner)
    (hqueue : s'.queueGetHandler = s.queueGetHandler) (hclaims : s'.claims = s.claims)
    (hcall : ∀ i, s'.call i = s.call i) : RepliesInv ft s' where
  cap := by rw [hqueue]; exact hs.cap
  calls := by
    intro i c hc
    rw [hcall] at hc
    exact (hs.calls i c hc).frame (by rw [howner]) (fun _ => hqueue) (fun e => by rw [hclaims])
  owner := by intro i h; rw [hcall]; exact hs.owner i (howner ▸ h)
  claimant := by intro i e h; rw [hcall]; exact hs.claimant i e (hclaims ▸ h)
  claimants := hclaims ▸ hs.claimants
  taken := by rw [hclaims, hqueue]; exact hs.taken

/-- RX puts a line on the queue while nobody holds the lock. -/
theorem RepliesInv.enqueue {line : Line} (hs : RepliesInv ft s) (hfree : s.owner = none)
    (howner : s'.owner = s.owner)
    (hqueue : s'.queueGetHandler = s.queueGetHandler.push line) (hclaims : s'.claims = s.claims)
    (hcall : ∀ i, s'.call i = s.call i) : RepliesInv ft s' where
  cap := by rw [hqueue]; exact hs.cap
  calls := by
    intro i c hc
    rw [hcall] at hc
    refine (hs.calls i c hc).frame (by rw [howner]) (fun h => ?_) (fun e => by rw [hclaims])
    rw [hfree] at h
    cases h
  owner := by intro i h; rw [hcall]; exact hs.owner i (howner ▸ h)
  claimant := by intro i e h; rw [hcall]; exact hs.claimant i e (hclaims ▸ h)
  claimants := hclaims ▸ hs.claimants
  taken := by rw [hclaims, hqueue]; exact hs.taken

/-- A step of handler `i` that removes no line. -/
theorem RepliesInv.handler {c' : GetCall} (hs : RepliesInv ft s) (hself : s'.call i = some c')
    (hother : ∀ j, j ≠ i → s'.call j = s.call j)
    (howner : ∀ j, j ≠ i → (s'.owner = some j ↔ s.owner = some j))
    (hqueue : s'.queueGetHandler = s.queueGetHandler) (hclaims : s'.claims = s.claims)
    (hcall : CallInv ft s' i c') : RepliesInv ft s' where
  cap := by rw [hqueue]; exact hs.cap
  calls := by
    intro j c hc
    by_cases hij : j = i
    · subst hij
      rw [hself] at hc
      cases hc
      exact hcall
    · rw [hother j hij] at hc
      exact (hs.calls j c hc).frame (howner j hij) (fun _ => hqueue) (fun e => by rw [hclaims])
  owner := by
    intro j h
    by_cases hij : j = i
    · exact ⟨c', hij ▸ hself⟩
    · rw [hother j hij]
      exact hs.owner j ((howner j hij).mp h)
  claimant := by
    intro j e h
    by_cases hij : j = i
    · exact ⟨c', hij ▸ hself⟩
    · rw [hother j hij]
      exact hs.claimant j e (hclaims ▸ h)
  claimants := hclaims ▸ hs.claimants
  taken := by rw [hclaims, hqueue]; exact hs.taken

/-! ## Steps of the handlers -/

section Handlers

variable (hs : RepliesInv ft s)
include hs

theorem RepliesInv.owner_ne (h : s.call i = none) : s.owner ≠ some i := by
  intro howner
  obtain ⟨c, hc⟩ := hs.owner i howner
  rw [h] at hc
  cases hc

theorem RepliesInv.no_claim (h : s.call i = none) (e : Tagged Line) : (i, e) ∉ s.claims := by
  intro hmem
  obtain ⟨c, hc⟩ := hs.claimant i e hmem
  rw [h] at hc
  cases hc

theorem RepliesInv.get {devname : Text} {requests : List CommandRequest}
    (h : stepGet s i devname requests = some s') : RepliesInv ft s' := by
  obtain ⟨strRequest, hidle, -, rfl⟩ := stepGet_eq_some h
  have hnone := State.call_idle hidle
  refine hs.handler (State.call_setThread_self _ _ _)
    (fun j hj => State.call_setThread_ne _ _ hj) (fun _ _ => Iff.rfl) rfl rfl ?_
  exact
    { locked := iff_of_false (by simp [Phase.locked]) (hs.owner_ne hnone)
      front := fun e he => by cases he
      accepted := fun e he => by cases he
      claimed := iff_of_false (fun ⟨e, he⟩ => hs.no_claim hnone e he) (by simp [Phase.claimed])
      cleared := fun e he => by cases he
      returned := fun he => by cases he }

theorem RepliesInv.lock (h : stepLock s i = some s') : RepliesInv ft s' := by
  obtain ⟨c, count, hcall, howner, hphase, rfl⟩ := stepLock_eq_some h
  have hc := hs.calls i c hcall
  refine hs.handler (State.call_setThread_self _ _ _)
    (fun j hj => State.call_setThread_ne _ _ hj) (fun j hj => ?_) rfl rfl ?_
  · exact iff_of_false (fun h => hj (Option.some.inj h).symm) (by simp [howner])
  · exact
      { locked := iff_of_true rfl rfl
        front := fun e he => by cases he
        accepted := fun e he => by cases he
        claimed := by simpa [hphase, Phase.claimed] using hc.claimed
        cleared := fun e he => by cases he
        returned := fun he => by cases he }

theorem RepliesInv.peek (h : stepPeek s i = some s') : RepliesInv ft s' := by
  obtain ⟨c, count, hcall, hphase, rfl⟩ := stepPeek_eq_some h
  have hc := hs.calls i c hcall
  refine hs.handler (State.call_setThread_self _ _ _)
    (fun j hj => State.call_setThread_ne _ _ hj) (fun _ _ => Iff.rfl) rfl rfl ?_
  exact
    { locked := iff_of_true rfl (hc.locked.mp (by simp [hphase, Phase.locked]))
      front := fun e he => he
      accepted := fun e he => by cases he
      claimed := by simpa [hphase, Phase.claimed] using hc.claimed
      cleared := fun e he => by cases he
      returned := fun he => by cases he }

theorem RepliesInv.parse (h : stepParse ft s i = some s') : RepliesInv ft s' := by
  obtain ⟨c, count, strGet, result, readings, hcall, hphase, hread, rfl⟩ := stepParse_eq_some h
  have hc := hs.calls i c hcall
  refine hs.handler (State.call_setThread_self _ _ _)
    (fun j hj => State.call_setThread_ne _ _ hj) (fun _ _ => Iff.rfl) rfl rfl ?_
  exact
    { locked := iff_of_true rfl (hc.locked.mp (by simp [hphase, Phase.locked]))
      front := fun e he => hc.front e (by rw [hphase]; exact he)
      accepted := fun e he => by
        cases result with
        | false => cases he
        | true =>
          cases he
          exact ⟨c.readings, hread⟩
      claimed := by simpa [hphase, Phase.claimed] using hc.claimed
      cleared := fun e he => by cases he
      returned := fun he => by cases he }

/-- The line that `clearQNode` removes is the line that the handler parsed. -/
theorem RepliesInv.clear_front {count : Nat} {strGet : Tagged Line} (hcall : s.call i = some c)
    (hphase : c.phase = .parsed count strGet true) :
    s.owner = some i ∧ s.queueGetHandler.queue.front = some strGet ∧ Accepts ft c strGet ∧
      ∀ e, (i, e) ∉ s.claims := by
  have hc := hs.calls i c hcall
  refine ⟨hc.locked.mp (by simp [hphase, Phase.locked]), hc.front _ (by rw [hphase]; rfl),
    hc.accepted _ (by rw [hphase]; rfl), fun e he => ?_⟩
  have hclaimed := hc.claimed.mp ⟨e, he⟩
  simp [hphase, Phase.claimed] at hclaimed

theorem RepliesInv.clear (h : stepClear s i = some s') : RepliesInv ft s' := by
  obtain ⟨c, count, strGet, hcall, hphase, rfl⟩ := stepClear_eq_some h
  obtain ⟨howner, hfront, haccepts, hnew⟩ := hs.clear_front hcall hphase
  have hclaims : ∀ j e, (j, e) ∈ s.claims ++ [(i, strGet)] ↔
      (j, e) ∈ s.claims ∨ j = i ∧ e = strGet := by simp
  exact
    { cap := hs.cap
      calls := by
        intro j d hd
        by_cases hij : j = i
        · subst hij
          rw [State.call_setThread_self] at hd
          cases hd
          exact
            { locked := iff_of_true rfl howner
              front := fun e he => by cases he
              accepted := fun e he => by cases he; exact haccepts
              claimed := iff_of_true ⟨strGet, (hclaims _ _).mpr (.inr ⟨rfl, rfl⟩)⟩ rfl
              cleared := fun e he => by cases he; exact (hclaims _ _).mpr (.inr ⟨rfl, rfl⟩)
              returned := fun he => by cases he }
        · rw [State.call_setThread_ne _ _ hij] at hd
          refine (hs.calls j d hd).frame Iff.rfl (fun h => ?_) (fun e => ?_)
          · rw [howner] at h
            exact absurd (Option.some.inj h).symm hij
          · simp [hij]
      owner := by
        intro j h
        obtain rfl : i = j := Option.some.inj (howner.symm.trans h)
        exact ⟨_, State.call_setThread_self _ _ _⟩
      claimant := by
        intro j e h
        by_cases hij : j = i
        · subst hij
          exact ⟨_, State.call_setThread_self _ _ _⟩
        · rw [State.call_setThread_ne _ _ hij]
          exact hs.claimant j e (((hclaims j e).mp h).resolve_right fun h => hij h.1)
      claimants := by
        have hnot : i ∉ s.claims.map Prod.fst := by
          rw [List.mem_map]
          rintro ⟨⟨j, e⟩, he, rfl⟩
          exact hnew e he
        simpa using hs.claimants.append (List.nodup_singleton i)
          (List.disjoint_singleton.mpr hnot)
      taken := by simp [Ledger.take_taken hfront, ← hs.taken] }

theorem RepliesInv.unlock (h : stepUnlock s i = some s') : RepliesInv ft s' := by
  obtain ⟨c, phase, hcall, hphase, rfl⟩ := stepUnlock_eq_some h
  have hc := hs.calls i c hcall
  have howner : s.owner = some i := hc.locked.mp hphase.locked
  refine hs.handler (State.call_setThread_self _ _ _)
    (fun j hj => State.call_setThread_ne _ _ hj) (fun j hj => ?_) rfl rfl ?_
  · exact iff_of_false (fun h => by cases h) (by simpa [howner] using hj.symm)
  · obtain ⟨hfree, hnone, hnot, hclaimed, hcleared⟩ := hphase.after
    exact
      { locked := iff_of_false (by simp [hfree]) (by simp)
        front := fun e he => by rw [hnone] at he; cases he
        accepted := fun e he => by rw [hnot] at he; cases he
        claimed := hclaimed ▸ hc.claimed
        cleared := fun e he => absurd he (hcleared e)
        returned := fun he => by
          obtain ⟨strGet, hold⟩ := hphase.returned he
          exact ⟨strGet, hc.cleared strGet hold, hc.accepted strGet (by rw [hold]; rfl)⟩ }

theorem RepliesInv.giveUp (h : stepGiveUp s i = some s') : RepliesInv ft s' := by
  obtain ⟨c, hcall, hphase, rfl⟩ := stepGiveUp_eq_some h
  have hc := hs.calls i c hcall
  refine hs.handler (State.call_setThread_self _ _ _)
    (fun j hj => State.call_setThread_ne _ _ hj) (fun _ _ => Iff.rfl) rfl rfl ?_
  exact
    { locked := by simpa [hphase, Phase.locked] using hc.locked
      front := fun e he => by cases he
      accepted := fun e he => by cases he
      claimed := by simpa [hphase, Phase.claimed] using hc.claimed
      cleared := fun e he => by cases he
      returned := fun he => by cases he }

end Handlers

/-! ## Runs -/

theorem RepliesInv.step (hs : RepliesInv ft s) (h : step ft s a = some s') : RepliesInv ft s' := by
  cases a with
  | get i devname requests => exact hs.get h
  | lock i => exact hs.lock h
  | peek i => exact hs.peek h
  | parse i => exact hs.parse h
  | clear i => exact hs.clear h
  | unlock i => exact hs.unlock h
  | giveUp i => exact hs.giveUp h
  | put i devname requests values =>
    obtain ⟨strRequest, hidle, -, rfl⟩ := stepPut_eq_some h
    refine hs.congr rfl rfl rfl fun j => ?_
    by_cases hij : j = i
    · subst hij
      rw [State.call_setThread_put, State.call_idle hidle]
    · rw [State.call_setThread_ne _ _ hij]
      rfl
  | discover =>
    cases h
    exact hs.congr rfl rfl rfl fun _ => rfl
  | addDevice devname mac addr =>
    cases h
    exact hs.congr rfl rfl rfl fun _ => rfl
  | txTake =>
    obtain ⟨strTx, -, -, rfl⟩ := stepTxTake_eq_some h
    exact hs.congr rfl rfl rfl fun _ => rfl
  | txWrite =>
    obtain ⟨strTx, -, rfl⟩ := stepTxWrite_eq_some h
    exact hs.congr rfl rfl rfl fun _ => rfl
  | reply command dev origin values =>
    obtain ⟨resnames, -, -, -, -, -, howner, rfl⟩ := stepReply_eq_some h
    exact hs.enqueue howner rfl rfl rfl fun _ => rfl
  | line text =>
    obtain ⟨howner, rfl⟩ := State.enQueueGet_eq_some h
    exact hs.enqueue howner rfl rfl rfl fun _ => rfl

theorem RepliesInv.of_run {acts : List Action}
    (hrun : Machine.run (Zigbee.step ft) State.init acts = some s) : RepliesInv ft s :=
  Machine.run_invariant RepliesInv.step hrun (RepliesInv.init ft)

/-- What a step can do to the lines of a reachable state. -/
inductive LinesEffect (s s' : State) : Action → Prop where
  /-- RX enqueues a line while no poll is under way. -/
  | enqueue {a : Action} (line : Line) (howner : s.owner = none)
      (hqueue : s'.queueGetHandler = s.queueGetHandler.push line) (hclaims : s'.claims = s.claims) :
      LinesEffect s s' a
  /-- Handler `i` removes the first line, which is the one it parsed. -/
  | clear (i : Nat) (strGet : Tagged Line) (howner : s.owner = some i)
      (hfront : s.queueGetHandler.queue.front = some strGet)
      (hqueue : s'.queueGetHandler = s.queueGetHandler.take)
      (hclaims : s'.claims = s.claims ++ [(i, strGet)]) : LinesEffect s s' (.clear i)
  | keep {a : Action} (hqueue : s'.queueGetHandler = s.queueGetHandler)
      (hclaims : s'.claims = s.claims) : LinesEffect s s' a

theorem RepliesInv.step_linesEffect (hs : RepliesInv ft s) (h : Zigbee.step ft s a = some s') :
    LinesEffect s s' a := by
  cases a with
  | get i devname requests =>
    obtain ⟨strRequest, -, -, rfl⟩ := stepGet_eq_some h
    exact .keep rfl rfl
  | lock i =>
    obtain ⟨c, count, -, -, -, rfl⟩ := stepLock_eq_some h
    exact .keep rfl rfl
  | peek i =>
    obtain ⟨c, count, -, -, rfl⟩ := stepPeek_eq_some h
    exact .keep rfl rfl
  | parse i =>
    obtain ⟨c, count, strGet, result, readings, -, -, -, rfl⟩ := stepParse_eq_some h
    exact .keep rfl rfl
  | clear i =>
    obtain ⟨c, count, strGet, hcall, hphase, rfl⟩ := stepClear_eq_some h
    obtain ⟨howner, hfront, -, -⟩ := hs.clear_front hcall hphase
    exact .clear i strGet howner hfront rfl rfl
  | unlock i =>
    obtain ⟨c, phase, -, -, rfl⟩ := stepUnlock_eq_some h
    exact .keep rfl rfl
  | giveUp i =>
    obtain ⟨c, -, -, rfl⟩ := stepGiveUp_eq_some h
    exact .keep rfl rfl
  | put i devname requests values =>
    obtain ⟨strRequest, -, -, rfl⟩ := stepPut_eq_some h
    exact .keep rfl rfl
  | discover =>
    cases h
    exact .keep rfl rfl
  | addDevice devname mac addr =>
    cases h
    exact .keep rfl rfl
  | txTake =>
    obtain ⟨strTx, -, -, rfl⟩ := stepTxTake_eq_some h
    exact .keep rfl rfl
  | txWrite =>
    obtain ⟨strTx, -, rfl⟩ := stepTxWrite_eq_some h
    exact .keep rfl rfl
  | reply command dev origin values =>
    obtain ⟨resnames, -, -, -, -, -, howner, rfl⟩ := stepReply_eq_some h
    exact .enqueue _ howner rfl rfl
  | line text =>
    obtain ⟨howner, rfl⟩ := State.enQueueGet_eq_some h
    exact .enqueue _ howner rfl rfl

/-- A line leaves the queue when the handler that parsed it removes it, or when RX finds the queue
full and the line is its oldest. -/
theorem RepliesInv.step_leaves (hs : RepliesInv ft s) {e : Tagged Line}
    (h : Zigbee.step ft s a = some s') (hmem : e ∈ s.queueGetHandler.queue.items)
    (hgone : e ∉ s'.queueGetHandler.queue.items) :
    (∃ i, a = .clear i ∧ s.owner = some i ∧ s'.claims = s.claims ++ [(i, e)]) ∨
      (s.queueGetHandler.queue.items.length = 10 ∧
        s.queueGetHandler.queue.front = some e ∧ e ∈ s'.queueGetHandler.evicted) := by
  cases hs.step_linesEffect h with
  | enqueue line howner hqueue hclaims =>
    rw [hqueue, Ledger.push_queue, Fifo.mem_push, not_or] at hgone
    rw [← s.queueGetHandler.queue.evicted_append_room, List.mem_append] at hmem
    have hev : e ∈ s.queueGetHandler.queue.evicted := hmem.resolve_right hgone.1
    obtain ⟨hfull, hfront⟩ := Fifo.evicted_eq hev
    exact .inr ⟨hfull.trans hs.cap, hfront, hqueue ▸ List.mem_append_right _ hev⟩
  | clear i strGet howner hfront hqueue hclaims =>
    obtain ⟨es, hes⟩ := List.head?_eq_some_iff.mp hfront
    rw [hqueue, Ledger.take_queue, Fifo.drop_items, hes] at hgone
    rw [hes] at hmem
    obtain rfl : e = strGet := (List.mem_cons.mp hmem).resolve_right hgone
    exact .inl ⟨i, rfl, howner, hclaims⟩
  | keep hqueue hclaims => exact absurd (hqueue ▸ hmem) hgone

/-- While a handler holds the lock, only its own `unlock` gives the lock away. -/
theorem RepliesInv.step_owner (hs : RepliesInv ft s) (howner : s.owner = some i)
    (h : Zigbee.step ft s a = some s') (ha : a ≠ .unlock i) : s'.owner = some i := by
  cases a with
  | get j devname requests =>
    obtain ⟨strRequest, -, -, rfl⟩ := stepGet_eq_some h
    exact howner
  | lock j =>
    obtain ⟨c, count, -, hfree, -, rfl⟩ := stepLock_eq_some h
    rw [howner] at hfree
    cases hfree
  | peek j =>
    obtain ⟨c, count, -, -, rfl⟩ := stepPeek_eq_some h
    exact howner
  | parse j =>
    obtain ⟨c, count, strGet, result, readings, -, -, -, rfl⟩ := stepParse_eq_some h
    exact howner
  | clear j =>
    obtain ⟨c, count, strGet, -, -, rfl⟩ := stepClear_eq_some h
    exact howner
  | unlock j =>
    obtain ⟨c, phase, hcall, hphase, rfl⟩ := stepUnlock_eq_some h
    have hj := (hs.calls j c hcall).locked.mp hphase.locked
    rw [howner] at hj
    exact absurd (Option.some.inj hj ▸ rfl) ha
  | giveUp j =>
    obtain ⟨c, -, -, rfl⟩ := stepGiveUp_eq_some h
    exact howner
  | put j devname requests values =>
    obtain ⟨strRequest, -, -, rfl⟩ := stepPut_eq_some h
    exact howner
  | discover | addDevice devname mac addr =>
    cases h
    exact howner
  | txTake =>
    obtain ⟨strTx, -, -, rfl⟩ := stepTxTake_eq_some h
    exact howner
  | txWrite =>
    obtain ⟨strTx, -, rfl⟩ := stepTxWrite_eq_some h
    exact howner
  | reply command dev origin values =>
    obtain ⟨resnames, -, -, -, -, -, hfree, rfl⟩ := stepReply_eq_some h
    exact howner
  | line text =>
    obtain ⟨-, rfl⟩ := State.enQueueGet_eq_some h
    exact howner

/-- While a handler that does not clear holds the lock, nobody changes the queue. -/
theorem RepliesInv.held_frame {acts : List Action} (hs : RepliesInv ft s)
    (howner : s.owner = some i) (hclear : .clear i ∉ acts) (hunlock : .unlock i ∉ acts)
    (hrun : Machine.run (Zigbee.step ft) s acts = some s') :
    s'.queueGetHandler = s.queueGetHandler := by
  induction acts generalizing s with
  | nil =>
    cases hrun
    rfl
  | cons a acts ih =>
    obtain ⟨t, ht, hrest⟩ := Machine.run_cons_eq_some.mp hrun
    rw [List.mem_cons, not_or] at hclear hunlock
    have htowner := hs.step_owner howner ht (Ne.symm hunlock.1)
    have hqueue : t.queueGetHandler = s.queueGetHandler := by
      cases hs.step_linesEffect ht with
      | enqueue line hfree hqueue hclaims =>
        rw [howner] at hfree
        cases hfree
      | clear j strGet hj hfront hqueue hclaims =>
        rw [howner] at hj
        exact absurd (Option.some.inj hj ▸ rfl) hclear.1
      | keep hqueue hclaims => exact hqueue
    rw [ih (hs.step ht) htowner hclear.2 hunlock.2 hrest, hqueue]

/-- A poll that does not accept leaves the queue as it was, whatever the others do meanwhile. -/
theorem RepliesInv.poll_frame {acts : List Action} (hs : RepliesInv ft s)
    (hclear : .clear i ∉ acts) (hunlock : .unlock i ∉ acts)
    (hrun : Machine.run (Zigbee.step ft) s (.lock i :: acts ++ [.unlock i]) = some s') :
    s'.queueGetHandler = s.queueGetHandler := by
  rw [List.cons_append, Machine.run_cons_eq_some] at hrun
  obtain ⟨held, hlock, hrun⟩ := hrun
  obtain ⟨t, hpoll, hrun⟩ := Machine.run_append_eq_some.mp hrun
  obtain ⟨u, hfree, hrun⟩ := Machine.run_cons_eq_some.mp hrun
  cases hrun
  have hheld := hs.step hlock
  have hqueue : held.queueGetHandler = s.queueGetHandler ∧ held.owner = some i := by
    obtain ⟨c, count, -, -, -, rfl⟩ := stepLock_eq_some hlock
    exact ⟨rfl, rfl⟩
  have hpoll' := hheld.held_frame hqueue.2 hclear hunlock hpoll
  obtain ⟨c, phase, -, -, rfl⟩ := stepUnlock_eq_some hfree
  exact hpoll'.trans hqueue.1

/-- In every run, each line is claimed by at most one handler and each handler claims at most one
line; what handlers claim is what was taken off the queue, and a handler that returned true has the
readings of the line it claimed. A line leaves the queue when the handler that holds the lock
removes the one it parsed, or as the oldest of ten when RX enqueues another one; a poll that does
not accept leaves the queue as it was. -/
theorem replies_claimed_once {acts : List Action}
    (hrun : Machine.run (Zigbee.step ft) State.init acts = some s) :
    ((s.claims.map Prod.fst).Nodup ∧ (s.claims.map Prod.snd).Nodup ∧
        (s.queueGetHandler.evicted ++
          (s.claims.map Prod.snd ++ s.queueGetHandler.queue.items)).Perm s.queueGetHandler.log ∧
        s.queueGetHandler.log.Nodup) ∧
      (∀ i c, s.call i = some c → c.phase = .returned true →
        ∃ e, (i, e) ∈ s.claims ∧ Accepts ft c e) ∧
      (∀ i e, (i, e) ∈ s.claims → ∃ c, s.call i = some c ∧ c.phase.claimed = true) ∧
      (∀ i c count e, s.call i = some c → c.phase = .parsed count e true →
        s.queueGetHandler.queue.front = some e) ∧
      (∀ a s' e, Zigbee.step ft s a = some s' → e ∈ s.queueGetHandler.queue.items →
        e ∉ s'.queueGetHandler.queue.items →
          (∃ i, a = .clear i ∧ s.owner = some i ∧ s'.claims = s.claims ++ [(i, e)]) ∨
            (s.queueGetHandler.queue.items.length = 10 ∧
              s.queueGetHandler.queue.front = some e ∧ e ∈ s'.queueGetHandler.evicted)) ∧
      ∀ i acts' s', .clear i ∉ acts' → .unlock i ∉ acts' →
        Machine.run (Zigbee.step ft) s (.lock i :: acts' ++ [.unlock i]) = some s' →
          s'.queueGetHandler = s.queueGetHandler := by
  have hs := RepliesInv.of_run hrun
  have hpart := s.queueGetHandler.partition
  refine ⟨⟨hs.claimants, ?_, ?_, s.queueGetHandler.nodup⟩, ?_, ?_, ?_, ?_, ?_⟩
  · rw [hs.taken]
    exact (List.nodup_append.mp (List.nodup_append.mp hpart).2.1).1
  · rw [hs.taken]
    exact s.queueGetHandler.perm
  · exact fun i c hcall hphase => (hs.calls i c hcall).returned hphase
  · intro i e hmem
    obtain ⟨c, hcall⟩ := hs.claimant i e hmem
    exact ⟨c, hcall, (hs.calls i c hcall).claimed.mp ⟨e, hmem⟩⟩
  · exact fun i c count e hcall hphase => (hs.clear_front hcall hphase).2.1
  · exact fun a s' e h hmem hgone => hs.step_leaves h hmem hgone
  · exact fun i acts' s' hclear hunlock hrun' => hs.poll_frame hclear hunlock hrun'

/-- One GET from request to result. -/
def demoExchange : List Action :=
  [.get 0 (lit "RandomDevice1") [⟨lit "SensorOne", .int32⟩], .txTake, .txWrite,
    .reply ⟨0, lit "b#RandomDevice1#100#1#SensorOne#"⟩ (lit "RandomDevice1") 60 [lit "30"],
    .lock 0, .peek 0, .parse 0, .clear 0, .unlock 0]

theorem replies_claimed_once_demo :
    ∃ s c, Machine.run (Zigbee.step FloatText.empty) State.init demoExchange = some s ∧
      s.call 0 = some c ∧ c.phase = .returned true ∧
      ∃ e, (0, e) ∈ s.claims ∧ Accepts FloatText.empty c e := by
  have hphase : ((Machine.run (Zigbee.step FloatText.empty) State.init demoExchange).bind
      (·.call 0)).map GetCall.phase = some (.returned true) := by decide
  obtain ⟨c, hc, hphase⟩ := Option.map_eq_some_iff.mp hphase
  obtain ⟨s, hs, hcall⟩ := Option.bind_eq_some_iff.mp hc
  exact ⟨s, c, hs, hcall, hphase, (replies_claimed_once hs).2.1 0 c hcall hphase⟩

end Zigbee
