-- SUMMARY: The discovery requests of the SDK: POST handlers and pool workers at the discovery lock.
import ZigbeeService.Lib.Machine
import ZigbeeService.Sdk.RunOne

/-!
# Discovery requests

`edgex_device_handler_discovery` tries the lock `discolock`, queues a work item while it holds it,
and unlocks. The work item, `edgex_device_handler_do_discovery`, takes the lock again when a worker
of the thread pool runs it. Between the two the lock is free.
-/

namespace Zigbee

open CLib

-- ---------------------------------------------------------------------------
-- The handlers and the workers
-- ---------------------------------------------------------------------------

def MHD_HTTP_NOT_IMPLEMENTED : Nat := 501
def MHD_HTTP_SERVICE_UNAVAILABLE : Nat := 503

/-- What a handler reads of the service before it tries the lock. -/
structure DiscoveryService where
  /-- `svc->userfns.discover != NULL` -/
  discover : Bool
  adminstate : AdminState
  opstate : OperatingState
  /-- `svc->config.device.discovery` -/
  discovery : Bool

/-- The status and the text of a request that is turned away before the lock. -/
def DiscoveryService.refuses (svc : DiscoveryService) : Option (Nat × Option Text) :=
  if !svc.discover then some (MHD_HTTP_NOT_IMPLEMENTED, none)
  else if svc.adminstate = .locked ∨ svc.opstate = .disabled then some (MHD_HTTP_LOCKED, none)
  else if !svc.discovery then
    some (MHD_HTTP_SERVICE_UNAVAILABLE, some (lit "Discovery disabled by configuration\n"))
  else none

namespace Discovery

/-- Where a thread of the HTTP server is in `edgex_device_handler_discovery`. -/
inductive Handler where
  /-- It has no discovery request, or is done with one. -/
  | idle
  /-- `pthread_mutex_trylock` took the lock. -/
  | locked
  /-- `iot_threadpool_add_work` has queued the work item. -/
  | queued
  deriving DecidableEq

/-- Where a worker of the pool is in `edgex_device_handler_do_discovery`. -/
inductive Worker where
  /-- It has no discovery item. -/
  | idle
  /-- It took a work item and is at the lock. -/
  | waiting
  /-- It holds the lock and is in the callback. -/
  | discovering
  deriving DecidableEq

/-- The lock, the discovery items in the queue of the pool, and the threads. -/
structure State where
  svc : DiscoveryService
  discolock : Bool
  queue : Nat
  handlers : List Handler
  workers : List Worker

/-- Any number of threads, before the first request. -/
def State.init (svc : DiscoveryService) (handlers workers : Nat) : State :=
  ⟨svc, false, 0, List.replicate handlers .idle, List.replicate workers .idle⟩

inductive Action where
  /-- The handler gets a request and tries the lock. -/
  | trylock (handler : Nat)
  | addWork (handler : Nat)
  | unlock (handler : Nat)
  /-- The worker takes an item from the queue. -/
  | take (worker : Nat)
  | lock (worker : Nat)
  /-- The callback returns and the worker unlocks. -/
  | finish (worker : Nat)

/-- A step of one thread. -/
def step (s : State) : Action → Option State
  | .trylock h =>
    if s.handlers[h]? = some .idle ∧ s.svc.refuses = none then
      if s.discolock then some s -- `discovery was already running; ignore this request`
      else some { s with discolock := true, handlers := s.handlers.set h .locked }
    else none
  | .addWork h =>
    if s.handlers[h]? = some .locked then
      some { s with queue := s.queue + 1, handlers := s.handlers.set h .queued }
    else none
  | .unlock h =>
    if s.handlers[h]? = some .queued then
      some { s with discolock := false, handlers := s.handlers.set h .idle }
    else none
  | .take w =>
    if s.workers[w]? = some .idle ∧ 0 < s.queue then
      some { s with queue := s.queue - 1, workers := s.workers.set w .waiting }
    else none
  | .lock w =>
    if s.workers[w]? = some .waiting ∧ s.discolock = false then
      some { s with discolock := true, workers := s.workers.set w .discovering }
    else none
  | .finish w =>
    if s.workers[w]? = some .discovering then
      some { s with discolock := false, workers := s.workers.set w .idle }
    else none

/-- The workers in the callback. -/
def State.discovering (s : State) : Nat := s.workers.count .discovering

/-- The work items that are queued or running. -/
def State.pending (s : State) : Nat := s.queue + s.workers.count .waiting + s.discovering

-- ---------------------------------------------------------------------------
-- The lock
-- ---------------------------------------------------------------------------

/-- The threads that hold the lock. -/
def State.holders (s : State) : Nat :=
  s.handlers.count .locked + s.handlers.count .queued + s.discovering

/-- The lock has as many holders as its state says. -/
def LockHeld (s : State) : Prop := s.holders = if s.discolock then 1 else 0

theorem lockHeld_init (svc : DiscoveryService) (handlers workers : Nat) :
    LockHeld (State.init svc handlers workers) := by
  simp [LockHeld, State.holders, State.discovering, State.init, List.count_replicate]

/-- What a step changes: at most the lock, the queue, and where one thread is. -/
inductive Effect (s : State) : Action → State → Prop where
  | ignored (h : Nat) (hlock : s.discolock = true) : Effect s (.trylock h) s
  | locked (h : Nat) (hh : s.handlers[h]? = some .idle) (hlock : s.discolock = false) :
    Effect s (.trylock h) { s with discolock := true, handlers := s.handlers.set h .locked }
  | addWork (h : Nat) (hh : s.handlers[h]? = some .locked) :
    Effect s (.addWork h) { s with queue := s.queue + 1, handlers := s.handlers.set h .queued }
  | unlock (h : Nat) (hh : s.handlers[h]? = some .queued) :
    Effect s (.unlock h) { s with discolock := false, handlers := s.handlers.set h .idle }
  | take (w : Nat) (hw : s.workers[w]? = some .idle) (hqueue : 0 < s.queue) :
    Effect s (.take w) { s with queue := s.queue - 1, workers := s.workers.set w .waiting }
  | lock (w : Nat) (hw : s.workers[w]? = some .waiting) (hlock : s.discolock = false) :
    Effect s (.lock w) { s with discolock := true, workers := s.workers.set w .discovering }
  | finish (w : Nat) (hw : s.workers[w]? = some .discovering) :
    Effect s (.finish w) { s with discolock := false, workers := s.workers.set w .idle }

theorem step_effect {s s' : State} {a : Action} (h : step s a = some s') : Effect s a s' := by
  cases a with
  | trylock i =>
    obtain ⟨⟨hi, -⟩, h⟩ := Option.ite_none_right_eq_some.mp h
    cases hlock : s.discolock with
    | true =>
      rw [if_pos hlock] at h
      cases h
      exact .ignored i hlock
    | false =>
      rw [if_neg (by simp [hlock])] at h
      cases h
      exact .locked i hi hlock
  | addWork i =>
    obtain ⟨hi, h⟩ := Option.ite_none_right_eq_some.mp h
    cases h
    exact .addWork i hi
  | unlock i =>
    obtain ⟨hi, h⟩ := Option.ite_none_right_eq_some.mp h
    cases h
    exact .unlock i hi
  | take w =>
    obtain ⟨⟨hw, hqueue⟩, h⟩ := Option.ite_none_right_eq_some.mp h
    cases h
    exact .take w hw hqueue
  | lock w =>
    obtain ⟨⟨hw, hlock⟩, h⟩ := Option.ite_none_right_eq_some.mp h
    cases h
    exact .lock w hw hlock
  | finish w =>
    obtain ⟨hw, h⟩ := Option.ite_none_right_eq_some.mp h
    cases h
    exact .finish w hw

/-- The counts behind a move of a handler or a worker. -/
theorem count_handlers {s : State} {i : Nat} {p : Handler} (h : s.handlers[i]? = some p)
    (p' : Handler) :
    (s.handlers.set i p').count .locked + (if p = .locked then 1 else 0) =
        s.handlers.count .locked + (if p' = .locked then 1 else 0) ∧
      (s.handlers.set i p').count .queued + (if p = .queued then 1 else 0) =
        s.handlers.count .queued + (if p' = .queued then 1 else 0) :=
  ⟨Machine.count_set_add h p' .locked, Machine.count_set_add h p' .queued⟩

theorem count_workers {s : State} {i : Nat} {p : Worker} (h : s.workers[i]? = some p)
    (p' : Worker) :
    (s.workers.set i p').count .waiting + (if p = .waiting then 1 else 0) =
        s.workers.count .waiting + (if p' = .waiting then 1 else 0) ∧
      (s.workers.set i p').count .discovering + (if p = .discovering then 1 else 0) =
        s.workers.count .discovering + (if p' = .discovering then 1 else 0) :=
  ⟨Machine.count_set_add h p' .waiting,
    Machine.count_set_add h p' .discovering⟩

theorem LockHeld.step {s s' : State} {a : Action} (hs : LockHeld s) (h : step s a = some s') :
    LockHeld s' := by
  unfold LockHeld State.holders State.discovering at *
  cases step_effect h with
  | ignored i hlock => exact hs
  | locked i hi hlock =>
    have := count_handlers hi .locked
    simp only [hlock, reduceCtorEq, Bool.false_eq_true, if_true, if_false] at *
    omega
  | addWork i hi =>
    have := count_handlers hi .queued
    simp only [reduceCtorEq, if_true, if_false] at *
    omega
  | unlock i hi =>
    have := count_handlers hi .idle
    simp only [reduceCtorEq, Bool.false_eq_true, if_true, if_false] at *
    split at hs <;> omega
  | take w hw hqueue =>
    have := count_workers hw .waiting
    simp only [reduceCtorEq, if_true, if_false] at *
    omega
  | lock w hw hlock =>
    have := count_workers hw .discovering
    simp only [hlock, reduceCtorEq, Bool.false_eq_true, if_true, if_false] at *
    omega
  | finish w hw =>
    have := count_workers hw .idle
    simp only [reduceCtorEq, Bool.false_eq_true, if_true, if_false] at *
    split at hs <;> omega

-- ---------------------------------------------------------------------------
-- At most one discovery
-- ---------------------------------------------------------------------------

/-- No request finds the lock free while a work item is queued or running. -/
def Unraced (s : State) : Action → Prop
  | .trylock _ => s.discolock = false → s.pending = 0
  | _ => True

instance (s : State) : (a : Action) → Decidable (Unraced s a)
  | .trylock _ => inferInstanceAs (Decidable (_ → _))
  | .addWork _ | .unlock _ | .take _ | .lock _ | .finish _ => .isTrue trivial

/-- A request that arrives while a work item is queued or running changes nothing. -/
def Ignores (s : State) : Action → Prop
  | .trylock h => 0 < s.pending → step s (.trylock h) = some s
  | _ => True

/-- The callbacks never overlap: they run under the lock. -/
theorem LockHeld.discovering_le_one {s : State} (hs : LockHeld s) : s.discovering ≤ 1 := by
  unfold LockHeld State.holders at hs
  split at hs <;> omega

/-- The work items, with the one that the holder of the lock is about to queue. -/
def AtMostOne (s : State) : Prop := s.pending + s.handlers.count .locked ≤ 1

theorem atMostOne_init (svc : DiscoveryService) (handlers workers : Nat) :
    AtMostOne (State.init svc handlers workers) := by
  simp [AtMostOne, State.pending, State.discovering, State.init, List.count_replicate]

theorem AtMostOne.step {s s' : State} {a : Action} (hlock : LockHeld s) (hs : AtMostOne s)
    (hg : Unraced s a) (h : step s a = some s') : AtMostOne s' := by
  unfold AtMostOne State.pending State.discovering at *
  cases step_effect h with
  | ignored i _ => exact hs
  | locked i hi hfree =>
    -- The lock was free, so nobody is about to queue an item, and the guard leaves none pending.
    have := count_handlers hi .locked
    have hnone := hg hfree
    unfold LockHeld State.holders at hlock
    unfold State.pending State.discovering at hnone
    simp only [hfree, reduceCtorEq, Bool.false_eq_true, if_true, if_false] at *
    omega
  | addWork i hi =>
    have := count_handlers hi .queued
    simp only [reduceCtorEq, if_true, if_false] at *
    omega
  | unlock i hi =>
    have := count_handlers hi .idle
    simp only [reduceCtorEq, if_true, if_false] at *
    omega
  | take w hw hqueue =>
    have := count_workers hw .waiting
    simp only [reduceCtorEq, if_true, if_false] at *
    omega
  | lock w hw _ =>
    have := count_workers hw .discovering
    simp only [reduceCtorEq, if_true, if_false] at *
    omega
  | finish w hw =>
    have := count_workers hw .idle
    simp only [reduceCtorEq, if_true, if_false] at *
    omega

/-- Where the step is taken, ignoring the request and not racing with it are the same. -/
theorem ignores_iff_unraced {s s' : State} {a : Action} (h : step s a = some s') :
    Ignores s a ↔ Unraced s a := by
  cases step_effect h with
  | ignored i hlock =>
    refine iff_of_true (fun _ => h) (fun hfree => ?_)
    rw [hlock] at hfree
    cases hfree
  | locked i hi hlock =>
    constructor
    · intro hignores _
      by_contra hpos
      have hsame := Option.some.inj (h.symm.trans (hignores (Nat.pos_of_ne_zero hpos)))
      have hdisco := congrArg State.discolock hsame
      rw [hlock] at hdisco
      cases hdisco
    · intro hunraced hpos
      exact absurd (hunraced hlock) hpos.ne'
  | addWork | unlock | take | lock | finish => exact Iff.rfl

theorem guarded_ignores_iff_unraced {s s' : State} {as : List Action}
    (hrun : Machine.run step s as = some s') :
    Machine.Guarded step Ignores s as ↔ Machine.Guarded step Unraced s as := by
  induction as generalizing s with
  | nil => exact Iff.rfl
  | cons a as ih =>
    obtain ⟨t, ht, hrest⟩ := Machine.run_cons_eq_some.mp hrun
    have hnext : ∀ {G : State → Action → Prop},
        (∀ u, step s a = some u → Machine.Guarded step G u as) ↔ Machine.Guarded step G t as := by
      intro G
      constructor
      · exact fun hall => hall t ht
      · intro hg u hu
        cases ht.symm.trans hu
        exact hg
    simp only [Machine.Guarded, ignores_iff_unraced ht, hnext, ih hrest]

/-- In every run the callbacks do not overlap. The requests that arrive while a work item is queued
or running are all ignored exactly when none of them finds the lock free, and then at most one work
item is queued or running. -/
theorem discovery_atMostOne {svc : DiscoveryService} {handlers workers : Nat} {s : State}
    {as : List Action} (hrun : Machine.run step (State.init svc handlers workers) as = some s) :
    s.discovering ≤ 1 ∧
      (Machine.Guarded step Ignores (State.init svc handlers workers) as ↔
        Machine.Guarded step Unraced (State.init svc handlers workers) as) ∧
      (Machine.Guarded step Unraced (State.init svc handlers workers) as → s.pending ≤ 1) := by
  have hlock : LockHeld s :=
    Machine.run_invariant LockHeld.step hrun (lockHeld_init svc handlers workers)
  refine ⟨hlock.discovering_le_one, guarded_ignores_iff_unraced hrun, fun hg => ?_⟩
  have hstep : ∀ {t a t'}, LockHeld t ∧ AtMostOne t → Unraced t a → step t a = some t' →
      LockHeld t' ∧ AtMostOne t' := by
    rintro t a t' ⟨hheld, hone⟩ hguard h
    exact ⟨hheld.step h, hone.step hheld hguard h⟩
  have hinv := hg.invariant hstep hrun
    ⟨lockHeld_init svc handlers workers, atMostOne_init svc handlers workers⟩
  exact Nat.le_of_add_right_le hinv.2

/-- A service that takes discovery requests. -/
def discoveryOn : DiscoveryService := ⟨true, .unlocked, .enabled, true⟩

/-- One request, queued and not yet taken by the worker. -/
def discoveryQueued : State := ⟨discoveryOn, false, 1, [.idle], [.idle]⟩

theorem discovery_atMostOne_request :
    Machine.run step (State.init discoveryOn 1 1) [.trylock 0, .addWork 0, .unlock 0] =
        some discoveryQueued ∧
      discoveryQueued.pending ≤ 1 := by
  have hrun : Machine.run step (State.init discoveryOn 1 1)
      [.trylock 0, .addWork 0, .unlock 0] = some discoveryQueued := rfl
  exact ⟨hrun, (discovery_atMostOne hrun).2.2 (by decide)⟩

/-- Two requests before a worker starts: the first has unlocked, so the second takes the lock and
queues a second work item. -/
theorem discovery_queued_twice :
    ∃ s, Machine.run step (State.init discoveryOn 2 1)
        [.trylock 0, .addWork 0, .unlock 0, .trylock 1, .addWork 1] = some s ∧ s.pending = 2 := by
  refine ⟨⟨discoveryOn, true, 2, [.idle, .queued], [.idle]⟩, rfl, rfl⟩

end Discovery

end Zigbee
