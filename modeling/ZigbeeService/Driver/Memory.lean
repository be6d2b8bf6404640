-- SUMMARY: The queues of the driver in memory: every step is a call of the linked queue that stores the entries.
import ZigbeeService.Driver.Commands
import ZigbeeService.Driver.Replies
import ZigbeeService.Queue.Linked

/-!
# The queues in memory

The driver is described over queues of entries. In the service each of them is a linked queue, and
what a step does with the entries is what one call does with the list.
-/

namespace Zigbee

open CLib LinkedList

variable {ft : FloatText} {s s' : State} {a : Action} {malloc : Malloc Text} {q q' q'' : QueueMem}

/-- Calls of the queue functions, each with its result, lead from `q` to `q'`. -/
def Calls (malloc : Malloc Text) (q : QueueMem) (calls : List (QueueOp × QueueResult))
    (q' : QueueMem) : Prop :=
  Machine.runOut (queueStep malloc) q (calls.map Prod.fst) = .ok (q', calls.map Prod.snd)

theorem Calls.append {calls calls' : List (QueueOp × QueueResult)} (h : Calls malloc q calls q')
    (h' : Calls malloc q' calls' q'') : Calls malloc q (calls ++ calls') q'' := by
  rw [Calls, List.map_append, List.map_append]
  exact Machine.runOut_append h h'

/-- One call does what it should do with the entries. -/
theorem Calls.refines {f : Fifo Text} (hr : q.Refines f) (op : QueueOp) :
    ∃ q', Calls malloc q [(op, (fifoStep f op).2)] q' ∧ q'.Refines (fifoStep f op).1 := by
  obtain ⟨q', hstep, hr'⟩ := queueStep_refines malloc op hr
  exact ⟨q', by simp [Calls, Machine.runOut, hstep], hr'⟩

/-- The call on `QueueTX` that a step makes, and what it returns to TX. -/
inductive TxCalls (s' : State) : Action → List (QueueOp × QueueResult) → Prop where
  | enQueue {a : Action} (str : Text) : TxCalls s' a [(.enQueue str, .done)]
  | deQueue (strTx : Tagged Text) (hstr : s'.strTx = some strTx) :
      TxCalls s' .txTake [(.deQueue, .text (some strTx.val))]
  | none {a : Action} : TxCalls s' a []

/-- The call on `QueueGetHandler`, and what it returns to the handler. -/
inductive GetCalls (s' : State) : Action → List (QueueOp × QueueResult) → Prop where
  | enQueue {a : Action} (str : Text) : GetCalls s' a [(.enQueue str, .done)]
  | readQNode {i count : Nat} {c : GetCall} (strGet : Option (Tagged Line))
      (hcall : s'.call i = some c) (hphase : c.phase = .peeked count strGet) :
      GetCalls s' (.peek i) [(.readQNode, .text (strGet.map fun line => line.val.text))]
  | clearQNode (i : Nat) : GetCalls s' (.clear i) [(.clearQNode, .done)]
  | none {a : Action} : GetCalls s' a []

theorem step_queueTX (hr : q.Refines s.texts) (h : step ft s a = some s') :
    ∃ calls q', Calls malloc q calls q' ∧ q'.Refines s'.texts ∧ TxCalls s' a calls := by
  cases step_txEffect h with
  | send str hqueue hstr hwritten =>
    obtain ⟨q', hcalls, hr'⟩ := Calls.refines hr (.enQueue str)
    refine ⟨_, q', hcalls, ?_, .enQueue str⟩
    rw [State.texts, hqueue, Ledger.push_queue, ← Fifo.map_push]
    exact hr'
  | take strTx hnone hfront hqueue hstr hwritten =>
    obtain ⟨q', hcalls, hr'⟩ := Calls.refines hr .deQueue
    have htext : s.texts.front = some strTx.val := by
      rw [State.texts, Fifo.map_front, hfront, Option.map_some]
    rw [fifoStep, htext] at hcalls
    refine ⟨_, q', hcalls, ?_, .deQueue strTx hstr⟩
    rw [State.texts, hqueue, Ledger.take_queue, ← Fifo.map_drop]
    exact hr'
  | write strTx hsome hqueue hstr hwritten =>
    exact ⟨[], q, rfl, by rw [State.texts, hqueue]; exact hr, .none⟩
  | keep hqueue hstr hwritten =>
    exact ⟨[], q, rfl, by rw [State.texts, hqueue]; exact hr, .none⟩

theorem stepPeek_queueGetHandler {i : Nat} (hr : q.Refines s.lines)
    (h : step ft s (.peek i) = some s') :
    ∃ calls q', Calls malloc q calls q' ∧ q'.Refines s'.lines ∧ GetCalls s' (.peek i) calls := by
  obtain ⟨c, count, -, -, rfl⟩ := stepPeek_eq_some h
  obtain ⟨q', hcalls, hr'⟩ := Calls.refines hr .readQNode
  rw [fifoStep, State.lines, Fifo.map_front] at hcalls
  exact ⟨_, q', hcalls, hr', .readQNode _ (State.call_setThread_self _ _ _) rfl⟩

theorem step_queueGetHandler (hs : RepliesInv ft s) (hr : q.Refines s.lines)
    (h : step ft s a = some s') :
    ∃ calls q', Calls malloc q calls q' ∧ q'.Refines s'.lines ∧ GetCalls s' a calls := by
  by_cases hpeek : ∃ i, a = .peek i
  · obtain ⟨i, rfl⟩ := hpeek
    exact stepPeek_queueGetHandler hr h
  cases hs.step_linesEffect h with
  | enqueue line howner hqueue hclaims =>
    obtain ⟨q', hcalls, hr'⟩ := Calls.refines hr (.enQueue line.text)
    refine ⟨_, q', hcalls, ?_, .enQueue line.text⟩
    rw [State.lines, hqueue, Ledger.push_queue, ← Fifo.map_push]
    exact hr'
  | clear i strGet howner hfront hqueue hclaims =>
    obtain ⟨q', hcalls, hr'⟩ := Calls.refines hr .clearQNode
    refine ⟨_, q', hcalls, ?_, .clearQNode i⟩
    rw [State.lines, hqueue, Ledger.take_queue, ← Fifo.map_drop]
    exact hr'
  | keep hqueue hclaims =>
    exact ⟨[], q, rfl, by rw [State.lines, hqueue]; exact hr, .none⟩

/-- A linked queue that was made with a capacity of 10, and that nothing but the queue functions
worked on since, stores the entries of `f`. -/
def StoredBy (malloc : Malloc Text) (f : Fifo Text) : Prop :=
  ∃ calls q, Calls malloc (createQueue 10) calls q ∧ q.Refines f

/-- In every state that the driver reaches, its queues are stored in memory. -/
theorem queues_in_memory (malloc : Malloc Text) {acts : List Action}
    (hrun : Machine.run (step ft) State.init acts = some s) :
    StoredBy malloc s.texts ∧ StoredBy malloc s.lines := by
  have hempty : ∀ {f : Fifo Text}, f.items = [] → f.cap = 10 → StoredBy malloc f := by
    intro f hitems hcap
    refine ⟨[], createQueue 10, rfl, ?_, [], QueueMem.Holds.createQueue 10, hitems.symm⟩
    rw [hcap]
    rfl
  have hinv := Machine.run_invariant
    (I := fun s => RepliesInv ft s ∧ StoredBy malloc s.texts ∧ StoredBy malloc s.lines)
    (fun {s a s'} hs h => ?_) hrun ⟨RepliesInv.init ft, hempty rfl rfl, hempty rfl rfl⟩
  · exact hinv.2
  · obtain ⟨hbase, ⟨txCalls, tx, htx, htxr⟩, getCalls, get, hget, hgetr⟩ := hs
    obtain ⟨calls, tx', htx', htxr', -⟩ := step_queueTX htxr h
    obtain ⟨calls', get', hget', hgetr', -⟩ := step_queueGetHandler hbase hgetr h
    exact ⟨hbase.step h, ⟨_, tx', htx.append htx', htxr'⟩, _, get', hget.append hget', hgetr'⟩

end Zigbee
