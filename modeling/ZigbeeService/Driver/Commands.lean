-- SUMMARY: What becomes of the commands on QueueTX, over every interleaving of the handlers with the TX thread.
import ZigbeeService.Driver.System

/-!
# Commands on the way to the radio

A command that was put on `QueueTX` is written once and in its turn, or it is discarded because the
queue was full when a later command came.
-/

namespace Zigbee

open CLib

variable {ft : FloatText} {s s' : State} {a : Action}

/-! ## Steps -/

/-- What a step can do to the commands. -/
inductive TxEffect (s s' : State) : Action → Prop where
  /-- A handler or discovery puts a command on the queue. -/
  | send {a : Action} (str : Text) (hqueue : s'.queueTX = s.queueTX.push str)
      (hstr : s'.strTx = s.strTx) (hwritten : s'.written = s.written) : TxEffect s s' a
  | take (strTx : Tagged Text) (hnone : s.strTx = none)
      (hfront : s.queueTX.queue.front = some strTx) (hqueue : s'.queueTX = s.queueTX.take)
      (hstr : s'.strTx = some strTx) (hwritten : s'.written = s.written) : TxEffect s s' .txTake
  | write (strTx : Tagged Text) (hsome : s.strTx = some strTx) (hqueue : s'.queueTX = s.queueTX)
      (hstr : s'.strTx = none) (hwritten : s'.written = s.written ++ [strTx]) :
      TxEffect s s' .txWrite
  /-- All other steps have nothing to do with commands. -/
  | keep {a : Action} (hqueue : s'.queueTX = s.queueTX) (hstr : s'.strTx = s.strTx)
      (hwritten : s'.written = s.written) : TxEffect s s' a

theorem step_txEffect (h : step ft s a = some s') : TxEffect s s' a := by
  cases a with
  | get i devname requests =>
    obtain ⟨strRequest, -, -, rfl⟩ := stepGet_eq_some h
    exact .send strRequest rfl rfl rfl
  | lock i | peek i | parse i | clear i | unlock i | giveUp i =>
    obtain ⟨c, c', owner, queue, claims, -, rfl, -⟩ := step_poller h rfl
    exact .keep rfl rfl rfl
  | put i devname requests values =>
    obtain ⟨strRequest, -, -, rfl⟩ := stepPut_eq_some h
    exact .send strRequest rfl rfl rfl
  | discover =>
    cases h
    exact .send _ rfl rfl rfl
  | addDevice devname mac addr =>
    cases h
    exact .send _ rfl rfl rfl
  | txTake =>
    obtain ⟨strTx, hnone, hfront, rfl⟩ := stepTxTake_eq_some h
    exact .take strTx hnone hfront rfl rfl rfl
  | txWrite =>
    obtain ⟨strTx, hsome, rfl⟩ := stepTxWrite_eq_some h
    exact .write strTx hsome rfl rfl rfl
  | reply command dev origin values =>
    obtain ⟨resnames, -, -, -, -, -, -, rfl⟩ := stepReply_eq_some h
    exact .keep rfl rfl rfl
  | line text =>
    obtain ⟨-, rfl⟩ := State.enQueueGet_eq_some h
    exact .keep rfl rfl rfl

/-- TX writes the commands in the order in which it takes them, one at a time. -/
def WrittenInTurn (s : State) : Prop := s.queueTX.taken = s.written ++ s.strTx.toList

theorem WrittenInTurn.step (hs : WrittenInTurn s) (h : step ft s a = some s') :
    WrittenInTurn s' := by
  unfold WrittenInTurn at *
  cases step_txEffect h with
  | send str hqueue hstr hwritten => rw [hqueue, hstr, hwritten, Ledger.push_taken, hs]
  | take strTx hnone hfront hqueue hstr hwritten =>
    rw [hqueue, hstr, hwritten, Ledger.take_taken hfront, hs, hnone]
    simp
  | write strTx hsome hqueue hstr hwritten =>
    rw [hqueue, hstr, hwritten, hs, hsome]
    simp
  | keep hqueue hstr hwritten => rw [hqueue, hstr, hwritten, hs]

theorem step_capTX (h : step ft s a = some s') :
    s'.queueTX.queue.cap = s.queueTX.queue.cap := by
  cases step_txEffect h with
  | send str hqueue hstr hwritten => rw [hqueue]; rfl
  | take strTx hnone hfront hqueue hstr hwritten => rw [hqueue]; rfl
  | write strTx hsome hqueue hstr hwritten => rw [hqueue]
  | keep hqueue hstr hwritten => rw [hqueue]

/-- The log of commands only grows. -/
theorem step_logTX_le (h : step ft s a = some s') :
    s.queueTX.log.length ≤ s'.queueTX.log.length := by
  cases step_txEffect h with
  | send str hqueue hstr hwritten => rw [hqueue, Ledger.push_log, List.length_append]; omega
  | take strTx hnone hfront hqueue hstr hwritten => rw [hqueue, Ledger.take_log]
  | write strTx hsome hqueue hstr hwritten => rw [hqueue]
  | keep hqueue hstr hwritten => rw [hqueue]

/-- What was discarded stays discarded. -/
theorem step_evictedTX_subset (h : step ft s a = some s') :
    s.queueTX.evicted ⊆ s'.queueTX.evicted := by
  cases step_txEffect h with
  | send str hqueue hstr hwritten => rw [hqueue]; exact List.subset_append_left _ _
  | take strTx hnone hfront hqueue hstr hwritten => rw [hqueue]; exact List.Subset.refl _
  | write strTx hsome hqueue hstr hwritten => rw [hqueue]; exact List.Subset.refl _
  | keep hqueue hstr hwritten => rw [hqueue]; exact List.Subset.refl _

/-- An entry leaves `QueueTX` when TX takes it, or when a send finds the queue full and the entry is
its oldest. -/
theorem step_leaves_queueTX {e : Tagged Text} (h : step ft s a = some s')
    (hmem : e ∈ s.queueTX.queue.items) (hgone : e ∉ s'.queueTX.queue.items) :
    (a = .txTake ∧ s'.strTx = some e) ∨
      (s.queueTX.queue.items.length = s.queueTX.queue.cap ∧ s.queueTX.queue.front = some e ∧
        e ∈ s'.queueTX.evicted) := by
  cases step_txEffect h with
  | send str hqueue hstr hwritten =>
    rw [hqueue, Ledger.push_queue, Fifo.mem_push, not_or] at hgone
    rw [← s.queueTX.queue.evicted_append_room, List.mem_append] at hmem
    have hev : e ∈ s.queueTX.queue.evicted := hmem.resolve_right hgone.1
    obtain ⟨hfull, hfront⟩ := Fifo.evicted_eq hev
    exact .inr ⟨hfull, hfront, hqueue ▸ List.mem_append_right _ hev⟩
  | take strTx hnone hfront hqueue hstr hwritten =>
    obtain ⟨es, hes⟩ := List.head?_eq_some_iff.mp hfront
    rw [hqueue, Ledger.take_queue, Fifo.drop_items, hes] at hgone
    rw [hes] at hmem
    obtain rfl : e = strTx := (List.mem_cons.mp hmem).resolve_right hgone
    exact .inl ⟨rfl, hstr⟩
  | write strTx hsome hqueue hstr hwritten => exact absurd (hqueue ▸ hmem) hgone
  | keep hqueue hstr hwritten => exact absurd (hqueue ▸ hmem) hgone

/-! ## PUT handlers -/

/-- A PUT handler that returned did so with true, and its command is in the log. -/
def PutsEnqueued (s : State) : Prop :=
  ∀ i n result, s.threads i = .put n result → result = true ∧ n < s.queueTX.log.length

theorem State.threads_setThread_get {i j n : Nat} {c : GetCall} {result : Bool}
    (h : (s.setThread i (.get c)).threads j = .put n result) : s.threads j = .put n result := by
  by_cases hij : j = i
  · subst hij
    simp [State.setThread] at h
  · simpa [State.setThread, Function.update_of_ne hij] using h

/-- A handler is known to have returned from a PUT after the step that enqueued its command. -/
theorem step_put {j n : Nat} {result : Bool} (h : step ft s a = some s')
    (hput : s'.threads j = .put n result) :
    s.threads j = .put n result ∨
      (result = true ∧ n = s.queueTX.log.length ∧ ∃ str, s'.queueTX = s.queueTX.push str) := by
  cases a with
  | get i devname requests =>
    obtain ⟨strRequest, -, -, rfl⟩ := stepGet_eq_some h
    exact .inl (State.threads_setThread_get hput)
  | lock i | peek i | parse i | clear i | unlock i | giveUp i =>
    obtain ⟨c, c', owner, queue, claims, -, rfl, -⟩ := step_poller h rfl
    exact .inl (State.threads_setThread_get hput)
  | put i devname requests values =>
    obtain ⟨strRequest, -, -, rfl⟩ := stepPut_eq_some h
    by_cases hij : j = i
    · subst hij
      simp only [State.setThread, Function.update_self, Thread.put.injEq] at hput
      exact .inr ⟨hput.2.symm, hput.1.symm, strRequest, rfl⟩
    · left
      simpa [State.setThread, State.enQueueTX, Function.update_of_ne hij] using hput
  | discover =>
    cases h
    exact .inl hput
  | addDevice devname mac addr =>
    cases h
    exact .inl hput
  | txTake =>
    obtain ⟨strTx, -, -, rfl⟩ := stepTxTake_eq_some h
    exact .inl hput
  | txWrite =>
    obtain ⟨strTx, -, rfl⟩ := stepTxWrite_eq_some h
    exact .inl hput
  | reply command dev origin values =>
    obtain ⟨resnames, -, -, -, -, -, -, rfl⟩ := stepReply_eq_some h
    exact .inl hput
  | line text =>
    obtain ⟨-, rfl⟩ := State.enQueueGet_eq_some h
    exact .inl hput

theorem PutsEnqueued.step (hs : PutsEnqueued s) (h : step ft s a = some s') : PutsEnqueued s' := by
  intro j n result hput
  rcases step_put h hput with hold | ⟨hresult, hn, str, hqueue⟩
  · exact ⟨(hs j n result hold).1, lt_of_lt_of_le (hs j n result hold).2 (step_logTX_le h)⟩
  · refine ⟨hresult, ?_⟩
    rw [hqueue, Ledger.push_log, List.length_append, List.length_singleton]
    omega

/-! ## Runs -/

/-- What holds of the commands in every state the driver can reach. -/
structure CommandsInv (s : State) : Prop where
  cap : s.queueTX.queue.cap = 10
  turn : WrittenInTurn s
  puts : PutsEnqueued s

theorem CommandsInv.of_run {acts : List Action}
    (hrun : Machine.run (step ft) State.init acts = some s) : CommandsInv s := by
  refine Machine.run_invariant (I := CommandsInv) (fun {s a s'} hs h => ?_) hrun ⟨rfl, rfl, ?_⟩
  · exact ⟨(step_capTX h).trans hs.cap, hs.turn.step h, hs.puts.step h⟩
  · intro i n result h
    cases h

/-- In every run, the commands whose `enQueue` returned are written at most once and in that order.
Each is written, in the hands of TX, on the queue, or discarded, and never two of these; a PUT
handler that returned true has enqueued its command. A command leaves the queue when TX takes it, or
as the oldest of ten when another one is enqueued. -/
theorem commands_accounted {acts : List Action}
    (hrun : Machine.run (step ft) State.init acts = some s) :
    (s.written ++ s.strTx.toList ++ s.queueTX.queue.items).Sublist s.queueTX.log ∧
      (s.queueTX.evicted ++ (s.written ++ s.strTx.toList ++ s.queueTX.queue.items)).Perm
        s.queueTX.log ∧
      s.queueTX.log.Nodup ∧
      (∀ i n, s.threads i = .put n true → ∃ e ∈ s.queueTX.log, e.tag = n) ∧
      ∀ a s' e, step ft s a = some s' → e ∈ s.queueTX.queue.items →
        e ∉ s'.queueTX.queue.items →
          (a = .txTake ∧ s'.strTx = some e) ∨
            (s.queueTX.queue.items.length = 10 ∧ s.queueTX.queue.front = some e ∧
              e ∈ s'.queueTX.evicted) := by
  have hs := CommandsInv.of_run hrun
  have hturn : s.queueTX.taken = s.written ++ s.strTx.toList := hs.turn
  rw [← hturn]
  refine ⟨s.queueTX.order, s.queueTX.perm, s.queueTX.nodup, fun i n hput => ?_,
    fun a s' e h hmem hgone => ?_⟩
  · have hn : n ∈ s.queueTX.log.map Tagged.tag := by
      rw [s.queueTX.tags, List.mem_range]
      exact (hs.puts i n true hput).2
    obtain ⟨e, hmem, htag⟩ := List.mem_map.mp hn
    exact ⟨e, hmem, htag⟩
  · rw [← hs.cap]
    exact step_leaves_queueTX h hmem hgone

/-- A PUT is accepted, composed and written. -/
theorem commands_accounted_put :
    ∃ s, Machine.run (step FloatText.empty) State.init
        [.put 0 (lit "RandomDevice1") [⟨lit "Switch", .bool⟩] [⟨0, .bool, ⟨1, [], []⟩⟩],
          .txTake, .txWrite] = some s ∧
      s.written = [⟨0, lit "c#RandomDevice1#0#1#Switch:true#"⟩] ∧
      (s.written ++ s.strTx.toList ++ s.queueTX.queue.items).Sublist s.queueTX.log := by
  obtain ⟨s, hs⟩ : ∃ s, Machine.run (step FloatText.empty) State.init
      [.put 0 (lit "RandomDevice1") [⟨lit "Switch", .bool⟩] [⟨0, .bool, ⟨1, [], []⟩⟩],
        .txTake, .txWrite] = some s := Option.isSome_iff_exists.mp (by decide)
  refine ⟨s, hs, ?_, (commands_accounted hs).1⟩
  have hwritten : (Machine.run (step FloatText.empty) State.init
      [.put 0 (lit "RandomDevice1") [⟨lit "Switch", .bool⟩] [⟨0, .bool, ⟨1, [], []⟩⟩],
        .txTake, .txWrite]).map State.written =
      some [⟨0, lit "c#RandomDevice1#0#1#Switch:true#"⟩] := by decide
  rw [hs] at hwritten
  exact Option.some.inj hwritten

/-- A command that was discarded is not written later. -/
theorem evicted_never_written {acts acts' : List Action} {e : Tagged Text}
    (hrun : Machine.run (step ft) State.init acts = some s) (he : e ∈ s.queueTX.evicted)
    (hrun' : Machine.run (step ft) s acts' = some s') : e ∉ s'.written := by
  have he' : e ∈ s'.queueTX.evicted :=
    Machine.run_invariant (I := fun s => e ∈ s.queueTX.evicted)
      (fun hs h => step_evictedTX_subset h hs) hrun' he
  have hturn : s'.queueTX.taken = s'.written ++ s'.strTx.toList :=
    (CommandsInv.of_run (Machine.run_append_eq_some.mpr ⟨s, hrun, hrun'⟩)).turn
  have hdisj := (List.nodup_append'.mp s'.queueTX.partition).2.2
  intro hmem
  exact hdisj he' (List.mem_append_left _ (hturn ▸ List.mem_append_left _ hmem))

/-- Eleven PUTs before TX takes any: each of them returns true, and the first is never written. -/
theorem put_returned_true_discarded :
    let put (i : Nat) : Action :=
      .put i (lit "RandomDevice1") [⟨lit "Switch", .bool⟩] [⟨0, .bool, ⟨1, [], []⟩⟩]
    ∃ s, Machine.run (step FloatText.empty) State.init ((List.range 11).map put) = some s ∧
      s.threads 0 = .put 0 true ∧
      (⟨0, lit "c#RandomDevice1#0#1#Switch:true#"⟩ : Tagged Text) ∈ s.queueTX.log ∧
      ∀ acts' s', Machine.run (step FloatText.empty) s acts' = some s' →
        ⟨0, lit "c#RandomDevice1#0#1#Switch:true#"⟩ ∉ s'.written := by
  intro put
  have hrun : (Machine.run (step FloatText.empty) State.init ((List.range 11).map put)).map
      (fun s => (s.threads 0, s.queueTX.evicted)) =
      some (.put 0 true, [⟨0, lit "c#RandomDevice1#0#1#Switch:true#"⟩]) := by decide
  obtain ⟨s, hs, hfacts⟩ := Option.map_eq_some_iff.mp hrun
  obtain ⟨hput, hevicted⟩ := Prod.mk.injEq .. ▸ hfacts
  have hmem : (⟨0, lit "c#RandomDevice1#0#1#Switch:true#"⟩ : Tagged Text) ∈ s.queueTX.evicted := by
    rw [hevicted]
    exact List.mem_singleton_self _
  exact ⟨s, hs, hput, Ledger.mem_log.mpr (.inl hmem),
    fun acts' s' hrun' => evicted_never_written hs hmem hrun'⟩

end Zigbee
